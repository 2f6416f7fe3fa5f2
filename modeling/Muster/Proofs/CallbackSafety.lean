import Muster.Login.SignOn
import Muster.Proofs.Keeps
import Muster.Proofs.Registrations

/-! What is promised of the callbacks in every order of logins, requests, timeouts and dropped
handles. -/

namespace Muster

open CallbackQuery (Names)

namespace Callbacks

/-- The registration of a login is gone, and nothing has changed for any other. -/
structure Retires (n : Nat) (state : String) (c c' : Callbacks) : Prop where
  gone : c'.isPending state = false
  pending : ∀ s, s ≠ state → c'.pending.get? s = c.pending.get? s
  logins : ∀ m, m ≠ n → c'.logins.get? m = c.logins.get? m

theorem isPending_eq_true {c : Callbacks} {state : String} :
    c.isPending state = true ↔ ∃ n, c.pending.get? state = some n := Option.isSome_iff_exists

theorem isPending_remove (c : Callbacks) (state : String) :
    (c.remove state).isPending state = false := by
  simp [isPending, remove, Table.contains]

theorem retires_hand (n : Nat) (state code : String) (c : Callbacks) :
    Retires n state c (c.hand n state code) where
  gone := isPending_remove c state
  pending s hs := by simp [hand, remove, hs]
  logins m hm := by simp [hand, hm]

theorem retires_remove (n : Nat) (state : String) (c : Callbacks) :
    Retires n state c (c.remove state) where
  gone := isPending_remove c state
  pending s hs := by simp [remove, hs]
  logins _ _ := rfl

namespace Tracks

variable {es : List Event} {c : Callbacks} {n i : Nat} {state code : String}

theorem waits_iff (h : Tracks es c) : Waits es n state ↔ c.pending.get? state = some n := by
  rw [h.pending]
  constructor
  · intro hw
    obtain ⟨l, hl⟩ := Option.isSome_iff_exists.1
      (h.alive n state hw.begun fun hd => hw.alive (.inl hd))
    obtain ⟨hbegun, -, hcode⟩ := h.login n l hl
    obtain ⟨s, code⟩ := l
    cases hbegun.symm.trans hw.begun
    cases code with
    | none => exact ⟨hl, fun hc => hw.alive (.inr hc)⟩
    | some a =>
      obtain ⟨i, hg⟩ := (hcode a).1 rfl
      exact absurd ((delivered_iff hbegun).2 hg) (hw.unanswered i a)
  · rintro ⟨hl, hc⟩
    obtain ⟨hbegun, hd, hcode⟩ := h.login n _ hl
    refine ⟨hbegun, not_or.2 ⟨hd, hc⟩, fun i a hg => ?_⟩
    cases (hcode a).2 ⟨i, (delivered_iff hbegun).1 hg⟩

theorem isPending_iff (h : Tracks es c) (state : String) :
    c.isPending state = true ↔ ∃ n, Waits es n state := by
  simp only [isPending_eq_true, h.waits_iff]

theorem isPending_of_ended (h : Tracks es c) (hn : Begun es n state) (hended : Ended es n) :
    c.isPending state = false := by
  rw [← Bool.not_eq_true, h.isPending_iff]
  rintro ⟨m, hm⟩
  exact hm.alive (begun_unique h.distinct hn hm.begun ▸ hended)

theorem mem_dropped (h : Tracks es c) (hn : Begun es n state) (hgone : c.logins.get? n = none) :
    .dropped n ∈ es := by
  by_contra hd
  have halive := h.alive n state hn hd
  simp [Table.contains, hgone] at halive

theorem retires_drop (h : Tracks es c) (hn : Begun es n state) : Retires n state c (c.drop n) := by
  cases hl : c.logins.get? n with
  | none =>
    rw [Callbacks.drop, hl]
    exact ⟨h.isPending_of_ended hn (.inl (h.mem_dropped hn hl)), fun _ _ => rfl, fun _ _ => rfl⟩
  | some l =>
    have hstate : l.state = state := (h.login n l hl).1.state_unique hn
    rw [Callbacks.drop, hl]
    subst hstate
    exact ⟨isPending_remove c l.state, fun s hs => by simp [remove, hs], fun m hm => by simp [hm]⟩

theorem delivered_of_verdict (h : Tracks es c) {limit : Duration}
    (hv : c.verdict n limit = .ok code) : ∃ i, Delivered es i n code := by
  rw [verdict] at hv
  split at hv
  · cases hv
  · rename_i l hl
    obtain ⟨hbegun, -, hcode⟩ := h.login n l hl
    simp only [delivered_iff hbegun, ← hcode code]
    split at hv
    · rename_i hl
      cases hv
      exact hl
    · split at hv <;> cases hv

theorem verdict_eq_ok (h : Tracks es c) (hn : Begun es n state) (hd : .dropped n ∉ es)
    (limit : Duration) : c.verdict n limit = .ok code ↔ ∃ i, Delivered es i n code := by
  refine ⟨h.delivered_of_verdict, ?_⟩
  obtain ⟨l, hl⟩ := Option.isSome_iff_exists.1 (h.alive n state hn hd)
  obtain ⟨hbegun, -, hcode⟩ := h.login n l hl
  simp only [delivered_iff hbegun, ← hcode code]
  intro hcode
  rw [verdict, hl]
  simp only [hcode]

theorem verdict_eq_timeout (h : Tracks es c) (hw : Waits es n state) (limit : Duration) :
    c.verdict n limit = .error (.timeout limit) := by
  have hpending := h.waits_iff.1 hw
  rw [verdict, ((h.pending state n).1 hpending).1]
  exact if_pos hpending

end Tracks

theorem Run.delivered_of_settled {es : List Event} {c : Callbacks} (h : Run es c) {n : Nat}
    {code : String} (hs : .settled n (.ok code) ∈ es) : ∃ i, Delivered es i n code := by
  induction h with
  | start => cases hs
  | @settle es c m limit h hm ih =>
    rcases List.mem_append.1 hs with hs | hs
    · obtain ⟨i, hi⟩ := ih hs
      exact ⟨i, hi.append _⟩
    · injection List.mem_singleton.1 hs with hnm hverdict
      subst hnm
      obtain ⟨i, hi⟩ := h.tracks.delivered_of_verdict hverdict.symm
      exact ⟨i, hi.append _⟩
  | begin _ _ ih | request _ _ ih | cancel _ _ ih | drop _ _ ih =>
    obtain ⟨i, hi⟩ := ih (by simpa using hs)
    exact ⟨i, hi.append _⟩

/-- What is promised of the callbacks after any events. -/
structure Safe (es : List Event) (c : Callbacks) : Prop where
  pending_iff : ∀ state, c.isPending state = true ↔ ∃ n, Waits es n state
  accepts_iff : ∀ pairs, (c.receive pairs).1.status = ⟨200⟩ ↔
    ∃ code state, Names pairs code state ∧ code ≠ "" ∧ c.isPending state = true
  accepted : ∀ pairs code state, (c.receive pairs).1.status = ⟨200⟩ → Names pairs code state →
    ∃ n, Waits es n state ∧ (c.receive pairs).2.logins.get? n = some ⟨state, some code⟩ ∧
      Retires n state c (c.receive pairs).2
  refused : ∀ pairs, (c.receive pairs).1.status ≠ ⟨200⟩ →
    (c.receive pairs).1.status = ⟨400⟩ ∧ (c.receive pairs).2 = c
  once : ∀ n i j a b, Delivered es i n a → Delivered es j n b → i = j ∧ a = b
  verdict_iff : ∀ n state code limit, Begun es n state → .dropped n ∉ es →
    (c.verdict n limit = .ok code ↔ ∃ i, Delivered es i n code)
  settled : ∀ n code, .settled n (.ok code) ∈ es → ∃ i, Delivered es i n code
  timeout : ∀ n state limit, Waits es n state → c.verdict n limit = .error (.timeout limit)
  ended : ∀ n state, Begun es n state → Ended es n → c.isPending state = false
  dropping : ∀ n state, Begun es n state → Retires n state c (c.drop n)
  waiting : ∀ n state limit, Begun es n state → Retires n state c (c.wait n limit).2
  cancelling : ∀ n state, Begun es n state → Retires n state c (c.remove state)

theorem Run.safe {es : List Event} {c : Callbacks} (h : Run es c) : Safe es c where
  pending_iff := h.tracks.isPending_iff
  accepts_iff pairs := by
    rcases receive_cases pairs c with ⟨code, state, n, hnames, hcode, hn, heq⟩ | ⟨hstatus, -, hnone⟩
    · rw [heq]
      exact ⟨fun _ => ⟨code, state, hnames, hcode, isPending_eq_true.2 ⟨n, hn⟩⟩, fun _ => rfl⟩
    · rw [hstatus]
      constructor
      · nofun
      · rintro ⟨code, state, hnames, hcode, hpending⟩
        obtain ⟨n, hn⟩ := isPending_eq_true.1 hpending
        cases hn.symm.trans (hnone code state hnames hcode)
  accepted pairs code state hok hnames := by
    rcases receive_cases pairs c with ⟨code', state', n, hnames', -, hn, heq⟩ | ⟨hstatus, -, -⟩
    · obtain ⟨rfl, rfl⟩ := hnames.unique hnames'
      rw [heq]
      refine ⟨n, h.tracks.waits_iff.2 hn, ?_, retires_hand n state code c⟩
      simp [hand, ((h.tracks.pending state n).1 hn).1]
    · cases hok.symm.trans hstatus
  refused pairs hrefused := by
    rcases receive_cases pairs c with ⟨_, _, _, _, _, _, heq⟩ | ⟨hstatus, hsame, -⟩
    · exact absurd (by rw [heq]) hrefused
    · exact ⟨hstatus, hsame⟩
  once n i j a b hi hj := by
    obtain ⟨state, hn, hgrant⟩ := hi
    have hgrant' := (delivered_iff hn).1 hj
    obtain rfl := h.tracks.once i j state a b hgrant hgrant'
    obtain ⟨e, he, hg⟩ := hgrant
    obtain ⟨e', he', hg'⟩ := hgrant'
    cases he.symm.trans he'
    exact ⟨rfl, hg.code_unique hg'⟩
  verdict_iff n state code limit hn hd := h.tracks.verdict_eq_ok hn hd limit
  settled n code := h.delivered_of_settled
  timeout n state limit hw := h.tracks.verdict_eq_timeout hw limit
  ended n state := h.tracks.isPending_of_ended
  dropping n state := h.tracks.retires_drop
  waiting n state limit := h.tracks.retires_drop
  cancelling n state _ := retires_remove n state c

/-- Callbacks go on until a login ends, which is then retired; a code that it brings was given to
it. -/
def Concludes (es : List Event) (n : Nat) (state : String) (result : Except (Halt AuthError) String)
    (before after : Callbacks) : Prop :=
  ∃ more last, Run (es ++ more) before ∧ Run (es ++ more ++ last) after ∧
    .dropped n ∈ more ++ last ∧ Retires n state before after ∧
    ∀ code, result = .ok code → ∃ i, Delivered (es ++ more) i n code

section

variable {es : List Event} {c : Callbacks} {n : Nat} {state : String}

theorem Run.close (h : Run es c) (hn : Begun es n state) :
    ∃ more, Run (es ++ more) (c.drop n) ∧ .dropped n ∈ es ++ more := by
  cases hl : c.logins.get? n with
  | none =>
    refine ⟨[], ?_, by simpa using h.tracks.mem_dropped hn hl⟩
    rw [Callbacks.drop, hl]
    simpa using h
  | some l => exact ⟨[.dropped n], h.drop (Option.isSome_iff_exists.2 ⟨l, hl⟩), by simp⟩

end

end Callbacks

open Callbacks

variable {ω : Type}

/-- While the browser is open callbacks go on, in any order. -/
def Gateway.GoesOn (g : Gateway ω) : Prop :=
  ∀ url p es, Run es p.callbacks → ∃ more, Run (es ++ more) (g.openBrowser url p).2.callbacks

namespace SignOn

def begun (state : String) (p : Portal ω) : Portal ω :=
  { p with callbacks := (p.callbacks.expect state).2 }

/-- However a login ends, what it does last is to give up its handle; a code is the one it had
then. -/
theorem awaitCode_cases (s : SignOn) (g : Gateway ω) (key : Pkce) (state : String)
    (limit : Duration) (p : Portal ω) :
    ∃ q : Portal ω, (q = begun state p ∨ ∃ url, q = (g.openBrowser url (begun state p)).2) ∧
      (s.awaitCode g key state limit p).2.callbacks = q.callbacks.drop p.callbacks.count ∧
      ∀ code, (s.awaitCode g key state limit p).1 = .ok code →
        q.callbacks.verdict p.callbacks.count limit = .ok code := by
  have hexpect : onCallbacks (·.expect state) p = (.ok p.callbacks.count, begun state p) := rfl
  rw [awaitCode, bind_of_ok hexpect]
  cases Authorize.url ⟨s.client, s.redirect, scopes, key.challenge, state⟩ s.authorizeUrl with
  | error e => exact ⟨_, .inl rfl, rfl, nofun⟩
  | ok url =>
    refine ⟨_, .inr ⟨url, rfl⟩, ?_⟩
    dsimp only
    rw [bind_of_ok (w := fun p => (.ok (g.openBrowser url p).1, (g.openBrowser url p).2)) rfl]
    rcases g.openBrowser url (begun state p) with ⟨reason | ⟨⟩, q⟩
    · exact ⟨rfl, nofun⟩
    · have hwait : onCallbacks (·.wait p.callbacks.count limit) q =
        (.ok (q.callbacks.verdict p.callbacks.count limit),
          { q with callbacks := q.callbacks.drop p.callbacks.count }) := rfl
      dsimp only
      rw [bind_of_ok hwait]
      cases q.callbacks.verdict p.callbacks.count limit with
      | error e => exact ⟨rfl, nofun⟩
      | ok code => exact ⟨rfl, fun _ h => by cases h; rfl⟩

theorem awaitCode_concludes {es : List Event} {p : Portal ω} (h : Run es p.callbacks) (s : SignOn)
    {g : Gateway ω} (hg : g.GoesOn) (key : Pkce) {state : String} (hnew : .begun state ∉ es)
    (limit : Duration) :
    ∃ q : Portal ω, (q = begun state p ∨ ∃ url, q = (g.openBrowser url (begun state p)).2) ∧
      Concludes (es ++ [.begun state]) p.callbacks.count state (s.awaitCode g key state limit p).1
        q.callbacks (s.awaitCode g key state limit p).2.callbacks := by
  have hbegin : Run (es ++ [.begun state]) (begun state p).callbacks := h.begin hnew
  obtain ⟨q, hq, hcallbacks, hcode⟩ := s.awaitCode_cases g key state limit p
  have hgoes : ∃ more, Run (es ++ [.begun state] ++ more) q.callbacks := by
    rcases hq with rfl | ⟨url, rfl⟩
    · exact ⟨[], by simpa using hbegin⟩
    · exact hg url _ _ hbegin
  obtain ⟨more, hrun⟩ := hgoes
  have hbegun : Begun (es ++ [.begun state]) p.callbacks.count state :=
    begun_begin.2 (.inr ⟨h.tracks.count, rfl⟩)
  have hbegun := hbegun.append more
  obtain ⟨last, hclose, hdropped⟩ := hrun.close hbegun
  rw [hcallbacks]
  refine ⟨q, hq, more, last, hrun, hclose, ?_, hrun.tracks.retires_drop hbegun, fun code hr =>
    hrun.tracks.delivered_of_verdict (hcode code hr)⟩
  -- The login is new, so that its handle was not gone before.
  have hnot : .dropped p.callbacks.count ∉ es := fun hd =>
    absurd (h.tracks.ended _ (.inl hd)) (h.tracks.count ▸ Nat.lt_irrefl _)
  simpa [hnot] using hdropped

theorem callbacks_authenticate (s : SignOn) (g : Gateway ω) (secret : Text.Bytes) (state : String)
    (limit : Duration) (p : Portal ω) :
    (s.authenticate g secret state limit p).2.callbacks =
      (s.awaitCode g (Pkce.ofBytes secret) state limit p).2.callbacks := by
  rw [authenticate]
  rcases hawait : s.awaitCode g (Pkce.ofBytes secret) state limit p with ⟨e | code, q⟩
  · rw [bind_of_error hawait]
  · rw [bind_of_ok hawait]
    rfl

end SignOn

/-- Callbacks are safe after all that may happen, in any order, and a login through the browser is
one of the things that may happen: whatever comes of it, in the end it is retired and no other
notices. -/
theorem Callbacks.Run.callbacks_are_safe {es : List Event} {c : Callbacks} (h : Run es c) :
    Safe es c ∧
    ∀ (ω : Type) (s : SignOn) (g : Gateway ω) (secret : Text.Bytes) (state : String)
      (limit : Duration) (p : Portal ω), g.GoesOn → p.callbacks = c → .begun state ∉ es →
      ∃ q : Portal ω,
        (q = SignOn.begun state p ∨ ∃ url, q = (g.openBrowser url (SignOn.begun state p)).2) ∧
        Concludes (es ++ [.begun state]) c.count state
          (s.awaitCode g (Pkce.ofBytes secret) state limit p).1 q.callbacks
          (s.authenticate g secret state limit p).2.callbacks := by
  refine ⟨h.safe, fun ω s g secret state limit p hg hp hnew => ?_⟩
  subst hp
  rw [SignOn.callbacks_authenticate]
  exact SignOn.awaitCode_concludes h s hg (Pkce.ofBytes secret) hnew limit

def Callbacks.twoLogins : List Event :=
  [.begun "a", .begun "b", .answered [("state", "a"), ("code", "x")] ⟨⟨200⟩, "ok"⟩,
    .settled 0 (.ok "x"), .dropped 0]

theorem Callbacks.run_twoLogins : ∃ c, Run twoLogins c ∧ c.isPending "b" = true := by
  have ha : Run [.begun "a"] _ := .begin .start (by simp)
  have hb : Run [.begun "a", .begun "b"] _ := .begin ha (by simp)
  have hrequest : Run [.begun "a", .begun "b",
      .answered [("state", "a"), ("code", "x")] ⟨⟨200⟩, "ok"⟩] _ :=
    .request [("state", "a"), ("code", "x")] hb
  have hsettle : Run [.begun "a", .begun "b",
      .answered [("state", "a"), ("code", "x")] ⟨⟨200⟩, "ok"⟩, .settled 0 (.ok "x")] _ :=
    .settle ⟨0⟩ hrequest rfl
  exact ⟨_, .drop hsettle rfl, rfl⟩

def Gateway.withoutBrowser : Gateway Unit where
  send := Http.unreachable
  openBrowser _ p := (.error "no display", p)
  now _ := ⟨0, 0⟩

theorem Gateway.goesOn_withoutBrowser : withoutBrowser.GoesOn := fun _ _ es h =>
  ⟨[], (List.append_nil es).symm ▸ h⟩

/-- The code of the first login is not given again, the second login still gets its own, and a third
one that finds no browser leaves no registration. -/
theorem Callbacks.two_logins_and_a_third :
    ∃ c, Run twoLogins c ∧ c.isPending "a" = false ∧
      (c.receive [("code", "y"), ("state", "b")]).1.status = ⟨200⟩ ∧
      ∀ s secret, (SignOn.authenticate s .withoutBrowser secret "c" ⟨0⟩
        ⟨c, none, ()⟩).2.callbacks.isPending "c" = false := by
  obtain ⟨c, hrun, hpending⟩ := run_twoLogins
  obtain ⟨hsafe, hthird⟩ := hrun.callbacks_are_safe
  refine ⟨c, hrun, ?_, ?_, fun s secret => ?_⟩
  · exact hsafe.ended 0 "a" rfl (.inl (by simp [twoLogins]))
  · have hnames : Names [("code", "y"), ("state", "b")] "y" "b" := by constructor <;> decide
    exact (hsafe.accepts_iff _).2 ⟨"y", "b", hnames, by decide, hpending⟩
  · obtain ⟨_, _, _, _, _, _, _, hretires, _⟩ := hthird Unit s .withoutBrowser secret "c" ⟨0⟩
      ⟨c, none, ()⟩ Gateway.goesOn_withoutBrowser rfl (by simp [twoLogins])
    exact hretires.gone

end Muster
