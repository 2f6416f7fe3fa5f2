import Muster.Proofs.Callbacks
import Mathlib.Data.List.Induction
import Mathlib.Data.List.Nodup

/-! To which login a state leads, as the events tell it when states may be registered again; and what
that comes to where no state is. -/

namespace Muster

open CallbackQuery (Names)

namespace Callbacks

/-- All that may happen when states may be registered again, in any order, with what is answered. -/
inductive Free : List Event → Callbacks → Prop
  | start : Free [] empty
  | begin {es : List Event} {c : Callbacks} (state : String) (h : Free es c) :
      Free (es ++ [.begun state]) (c.expect state).2
  | request {es : List Event} {c : Callbacks} (pairs : List (String × String)) (h : Free es c) :
      Free (es ++ [.answered pairs (c.receive pairs).1]) (c.receive pairs).2
  | settle {es : List Event} {c : Callbacks} {n : Nat} (limit : Duration) (h : Free es c)
      (hn : c.logins.contains n = true) : Free (es ++ [.settled n (c.verdict n limit)]) c
  | cancel {es : List Event} {c : Callbacks} {n : Nat} {l : PendingLogin} (h : Free es c)
      (hn : c.logins.get? n = some l) : Free (es ++ [.cancelled n]) (c.remove l.state)
  | drop {es : List Event} {c : Callbacks} {n : Nat} (h : Free es c)
      (hn : c.logins.contains n = true) : Free (es ++ [.dropped n]) (c.drop n)

/-- By an event a state no longer leads where it did: a login of it begins, gets a code or ends. -/
def Turns (es : List Event) (state : String) (e : Event) : Prop :=
  e = .begun state ∨ (∃ code, e.Grants state code) ∨
    ∃ n, Begun es n state ∧ (e = .dropped n ∨ e = .cancelled n)

/-- A login of the state has begun, and since then no other one has, no code has come for the state, and
none of its logins has ended: neither this one nor an earlier one. -/
def Stands (es : List Event) (n : Nat) (state : String) : Prop :=
  ∃ before after, es = before ++ .begun state :: after ∧ n = (states before).length ∧
    ∀ e ∈ after, ¬Turns es state e

def Receives (es : List Event) (i n : Nat) (code : String) : Prop :=
  ∃ state e, es[i]? = some e ∧ e.Grants state code ∧ Stands (es.take i) n state

section

variable {es : List Event} {e : Event} {n i : Nat} {state code : String}

theorem begun_concat (h : e ≠ .begun state) : Begun (es ++ [e]) n state ↔ Begun es n state := by
  cases e with
  | begun s =>
    rw [begun_begin]
    exact or_iff_left fun hs => h (congrArg Event.begun hs.2)
  | _ => rw [Begun, states_concat_of_none rfl, Begun]

theorem turns_concat (h : e ≠ .begun state) (d : Event) :
    Turns (es ++ [e]) state d ↔ Turns es state d := by
  simp only [Turns, begun_concat h]

theorem Stands.begun (h : Stands es n state) : Begun es n state := by
  obtain ⟨before, after, rfl, rfl, -⟩ := h
  simp [Begun, states, Event.state?]

theorem Stands.ne_of_begun {m : Nat} {other : String} (h : Stands es m state) (hn : Begun es n other)
    (hne : state ≠ other) : m ≠ n :=
  fun hmn => hne (Begun.state_unique (hmn ▸ h.begun) hn)

theorem stands_concat : Stands (es ++ [e]) n state ↔
    e = .begun state ∧ n = (states es).length ∨ Stands es n state ∧ ¬Turns es state e := by
  constructor
  · intro h
    obtain ⟨before, after, heq, hn, hafter⟩ := h
    obtain rfl | ⟨after, d, rfl⟩ := after.eq_nil_or_concat'
    · obtain ⟨rfl, he⟩ := List.append_inj' heq rfl
      exact .inl ⟨List.singleton_inj.1 he, hn⟩
    · rw [← List.cons_append, ← List.append_assoc] at heq
      obtain ⟨rfl, hd⟩ := List.append_inj' heq rfl
      obtain rfl := List.singleton_inj.1 hd
      have hlast : ¬Turns (before ++ .begun state :: after ++ [e]) state e := hafter e (by simp)
      have hne : e ≠ .begun state := fun he => hlast (.inl he)
      rw [turns_concat hne] at hlast
      exact .inr ⟨⟨before, after, rfl, hn, fun d hd =>
        mt (turns_concat hne d).2 (hafter d (List.mem_append_left _ hd))⟩, hlast⟩
  · intro h
    obtain ⟨rfl, rfl⟩ | ⟨⟨before, after, rfl, hn, hafter⟩, hlast⟩ := h
    · exact ⟨es, [], rfl, rfl, by simp⟩
    · have hne : e ≠ .begun state := fun he => hlast (.inl he)
      refine ⟨before, after ++ [e], by simp, hn, fun d hd => ?_⟩
      rw [turns_concat hne]
      obtain hd | hd := List.mem_append.1 hd
      · exact hafter d hd
      · rw [List.mem_singleton.1 hd]
        exact hlast

theorem Stands.begun_of_take (h : Stands (es.take i) n state) : Begun es n state := by
  have hbegun := h.begun.append (es.drop i)
  rwa [List.take_append_drop] at hbegun

theorem Receives.begun (h : Receives es i n code) : ∃ state, Begun es n state := by
  obtain ⟨state, e, -, -, hstands⟩ := h
  exact ⟨state, hstands.begun_of_take⟩

theorem receives_concat : Receives (es ++ [e]) i n code ↔
    Receives es i n code ∨ i = es.length ∧ ∃ state, e.Grants state code ∧ Stands es n state := by
  obtain hlt | rfl | hgt := Nat.lt_trichotomy i es.length
  · simp only [Receives, List.getElem?_append_left hlt, List.take_append_of_le_length (Nat.le_of_lt hlt),
      Nat.ne_of_lt hlt, false_and, or_false]
  · simp [Receives]
  · have hnone : ∀ ds : List Event, ds.length ≤ i → ¬Receives ds i n code := by
      intro ds hds h
      obtain ⟨_, _, hd, -⟩ := h
      rw [List.getElem?_eq_none hds] at hd
      cases hd
    have hlength : (es ++ [e]).length ≤ i := by simpa using Nat.succ_le_of_lt hgt
    simp [hnone es (Nat.le_of_lt hgt), hnone _ hlength, Nat.ne_of_gt hgt]

theorem receives_concat_of_not (h : ∀ s a, ¬e.Grants s a) :
    Receives (es ++ [e]) i n code ↔ Receives es i n code := by
  simp [receives_concat, h]

end

/-- The callbacks are what the events so far make of them. -/
structure Follows (es : List Event) (c : Callbacks) : Prop where
  count : c.count = (states es).length
  login : ∀ n l, c.logins.get? n = some l → Begun es n l.state ∧ .dropped n ∉ es ∧
    ∀ code, l.code = some code ↔ ∃ i, Receives es i n code
  alive : ∀ n state, Begun es n state → .dropped n ∉ es → c.logins.contains n = true
  leads : ∀ state n, c.pending.get? state = some n ↔ Stands es n state
  waits : ∀ n state, Stands es n state → c.logins.get? n = some ⟨state, none⟩
  ended : ∀ n, Ended es n → n < (states es).length

namespace Follows

variable {es : List Event} {c : Callbacks} {n i : Nat} {state code : String}

theorem start : Follows [] empty := by
  constructor <;> simp [empty, states, Begun, Stands, Ended]

theorem quiet (h : Follows es c) {e : Event} (hturns : ∀ s, ¬Turns es s e) (hstate : e.state? = none)
    (hgrants : ∀ s a, ¬e.Grants s a) (hdropped : ∀ n, e ≠ .dropped n) (hcancelled : ∀ n, e ≠ .cancelled n) :
    Follows (es ++ [e]) c := by
  have hstates : states (es ++ [e]) = states es := states_concat_of_none hstate
  have hbegun : ∀ n s, Begun (es ++ [e]) n s ↔ Begun es n s := fun n s => by
    rw [Begun, hstates, Begun]
  have hreceives : ∀ i n a, Receives (es ++ [e]) i n a ↔ Receives es i n a := fun i n a =>
    receives_concat_of_not hgrants
  have hstands : ∀ n s, Stands (es ++ [e]) n s ↔ Stands es n s := fun n s => by
    have hne : e ≠ .begun s := fun he => hturns s (.inl he)
    simp [stands_concat, hne, hturns]
  have hdrop : ∀ n, Event.dropped n ∈ es ++ [e] ↔ .dropped n ∈ es := fun n => by
    simp [(hdropped n).symm]
  have hcancel : ∀ n, Event.cancelled n ∈ es ++ [e] ↔ .cancelled n ∈ es := fun n => by
    simp [(hcancelled n).symm]
  constructor <;> simp only [hstates, hbegun, hreceives, hstands, hdrop, hcancel, Ended]
  · exact h.count
  · exact h.login
  · exact h.alive
  · exact h.leads
  · exact h.waits
  · exact h.ended

theorem begin (h : Follows es c) (state : String) :
    Follows (es ++ [.begun state]) (c.expect state).2 := by
  have hstates : states (es ++ [.begun state]) = states es ++ [state] := states_begin state
  have hreceives : ∀ i n a, Receives (es ++ [.begun state]) i n a ↔ Receives es i n a := fun i n a =>
    receives_concat_of_not fun _ _ hf => hf
  have hstands : ∀ n s, Stands (es ++ [.begun state]) n s ↔
      if s = state then n = c.count else Stands es n s := fun n s => by
    rw [stands_concat, h.count]
    by_cases hs : s = state
    · simp [hs, Turns]
    · simp [hs, Turns, Ne.symm hs, Event.Grants]
  have hdrop : ∀ n, Event.dropped n ∈ es ++ [.begun state] ↔ .dropped n ∈ es := fun n => by simp
  have hcancel : ∀ n, Event.cancelled n ∈ es ++ [.begun state] ↔ .cancelled n ∈ es := fun n => by
    simp
  constructor <;> simp only [hreceives, hstands, hdrop, hcancel, Ended, expect, hstates,
    List.length_append, Table.get?_insert]
  · rw [h.count]
    rfl
  · intro n l hl
    split at hl
    · rename_i hn
      cases hl
      have hnew : ∀ m, m < (states es).length → n ≠ m := fun m hm => by
        have hcount := h.count
        omega
      refine ⟨begun_begin.2 (.inr ⟨hn.trans h.count, rfl⟩), fun hd => hnew n (h.ended n (.inl hd)) rfl,
        fun a => iff_of_false (by simp) fun hr => ?_⟩
      obtain ⟨i, hr⟩ := hr
      obtain ⟨_, hbegun⟩ := hr.begun
      exact absurd rfl (hnew n hbegun.lt)
    · obtain ⟨hbegun, hd, hcode⟩ := h.login n l hl
      exact ⟨begun_begin.2 (.inl hbegun), hd, hcode⟩
  · intro n s hn hd
    rw [Table.contains_insert]
    obtain hn | ⟨hn, -⟩ := begun_begin.1 hn
    · simp [h.alive n s hn hd]
    · simp [h.count, hn]
  · intro s n
    by_cases hs : s = state
    · simp [hs, eq_comm]
    · simp [hs, h.leads]
  · intro n s hn
    split at hn
    · simp [*]
    · have hlt := hn.begun.lt
      have hcount := h.count
      rw [if_neg (by omega), h.waits n s hn]
  · intro n hn
    exact Nat.lt_add_right 1 (h.ended n hn)

theorem hand (h : Follows es c) {pairs : List (String × String)} {body : String}
    (hnames : Names pairs code state) (hn : c.pending.get? state = some n) :
    Follows (es ++ [.answered pairs ⟨⟨200⟩, body⟩]) (c.hand n state code) := by
  have hstanding := (h.leads state n).1 hn
  have hlogin := h.waits n state hstanding
  obtain ⟨hbegun, hd, hcode⟩ := h.login n _ hlogin
  have hstates : states (es ++ [.answered pairs ⟨⟨200⟩, body⟩]) = states es :=
    states_concat_of_none rfl
  have hgrants : ∀ s a, Event.Grants (.answered pairs ⟨⟨200⟩, body⟩) s a ↔ s = state ∧ a = code :=
    fun s a => ⟨fun hg => ⟨(hg.2.unique hnames).2, (hg.2.unique hnames).1⟩,
      fun ⟨hs, ha⟩ => ⟨rfl, hs ▸ ha ▸ hnames⟩⟩
  have hreceives : ∀ i m a, Receives (es ++ [.answered pairs ⟨⟨200⟩, body⟩]) i m a ↔
      Receives es i m a ∨ i = es.length ∧ a = code ∧ m = n := fun i m a => by
    have hone : Stands es m state ↔ m = n := by
      rw [← h.leads, hn, Option.some.injEq, eq_comm]
    rw [receives_concat]
    refine or_congr_right (and_congr_right fun _ => ?_)
    simp only [hgrants]
    constructor
    · intro hr
      obtain ⟨s, ⟨rfl, ha⟩, hm⟩ := hr
      exact ⟨ha, hone.1 hm⟩
    · intro hr
      exact ⟨state, ⟨rfl, hr.1⟩, hone.2 hr.2⟩
  have hstands : ∀ m s, Stands (es ++ [.answered pairs ⟨⟨200⟩, body⟩]) m s ↔
      Stands es m s ∧ s ≠ state := fun m s => by
    simp [stands_concat, Turns, hgrants]
  have hdrop : ∀ m, Event.dropped m ∈ es ++ [.answered pairs ⟨⟨200⟩, body⟩] ↔ .dropped m ∈ es :=
    fun m => by simp
  have hcancel : ∀ m, Event.cancelled m ∈ es ++ [.answered pairs ⟨⟨200⟩, body⟩] ↔
      .cancelled m ∈ es := fun m => by simp
  constructor <;> simp only [Begun, hstates, hreceives, hstands, hdrop, hcancel, Ended, Callbacks.hand,
    remove, Table.get?_adjust, Table.get?_erase, Table.contains_adjust]
  · exact h.count
  · intro m l hl
    split at hl
    · rename_i hm
      subst hm
      rw [hlogin] at hl
      cases hl
      -- A login that stands has no code yet, and so it has received none.
      have hfirst : ∀ i a, ¬Receives es i m a := fun i a hr => by
        cases (hcode a).2 ⟨i, hr⟩
      exact ⟨hbegun, hd, fun a => by simp [hfirst, eq_comm]⟩
    · rename_i hm
      obtain ⟨hb, hd, hc⟩ := h.login m l hl
      exact ⟨hb, hd, fun a => by simp [hc, hm]⟩
  · exact h.alive
  · intro s m
    by_cases hs : s = state
    · simp [hs]
    · simp [hs, h.leads]
  · intro m s hm
    have hne : m ≠ n := hm.1.ne_of_begun hbegun hm.2
    rw [if_neg hne, h.waits m s hm.1]
  · exact h.ended

/-- The end of a login takes the registration of its state away, whichever login made it. -/
theorem turn (h : Follows es c) {e : Event} {l : PendingLogin} (hn : c.logins.get? n = some l)
    (he : e = .dropped n ∨ e = .cancelled n) (m : Nat) (s : String) :
    Stands (es ++ [e]) m s ↔ Stands es m s ∧ s ≠ l.state := by
  have hbegun := (h.login n l hn).1
  have hturns : Turns es s e ↔ s = l.state := by
    have hown : Begun es n s ↔ s = l.state :=
      ⟨fun hs => hs.state_unique hbegun, fun hs => hs ▸ hbegun⟩
    obtain rfl | rfl := he <;> simp [Turns, Event.Grants, hown]
  rw [stands_concat, hturns]
  obtain rfl | rfl := he <;> simp

theorem cancel (h : Follows es c) {l : PendingLogin} (hn : c.logins.get? n = some l) :
    Follows (es ++ [.cancelled n]) (c.remove l.state) := by
  have hstates : states (es ++ [.cancelled n]) = states es := states_concat_of_none rfl
  have hreceives : ∀ i m a, Receives (es ++ [.cancelled n]) i m a ↔ Receives es i m a := fun i m a =>
    receives_concat_of_not fun _ _ hf => hf
  have hstands := h.turn hn (.inr rfl)
  have hdrop : ∀ m, Event.dropped m ∈ es ++ [.cancelled n] ↔ .dropped m ∈ es := fun m => by simp
  have hcancel : ∀ m, Event.cancelled m ∈ es ++ [.cancelled n] ↔ .cancelled m ∈ es ∨ m = n :=
    fun m => by simp
  constructor <;> simp only [Begun, hstates, hreceives, hstands, hdrop, hcancel, Ended, remove,
    Table.get?_erase]
  · exact h.count
  · exact h.login
  · exact h.alive
  · intro s m
    by_cases hs : s = l.state
    · simp [hs]
    · simp [hs, h.leads]
  · exact fun m s hm => h.waits m s hm.1
  · intro m hm
    obtain hm | hm | rfl := hm
    · exact h.ended m (.inl hm)
    · exact h.ended m (.inr hm)
    · exact (h.login m l hn).1.lt

theorem drop (h : Follows es c) (hn : c.logins.contains n = true) :
    Follows (es ++ [.dropped n]) (c.drop n) := by
  obtain ⟨l, hl⟩ := Option.isSome_iff_exists.1 hn
  have hbegun := (h.login n l hl).1
  have hstates : states (es ++ [.dropped n]) = states es := states_concat_of_none rfl
  have hreceives : ∀ i m a, Receives (es ++ [.dropped n]) i m a ↔ Receives es i m a := fun i m a =>
    receives_concat_of_not fun _ _ hf => hf
  have hstands := h.turn hl (.inl rfl)
  have hdrop : ∀ m, Event.dropped m ∈ es ++ [.dropped n] ↔ .dropped m ∈ es ∨ m = n :=
    fun m => by simp
  have hcancel : ∀ m, Event.cancelled m ∈ es ++ [.dropped n] ↔ .cancelled m ∈ es := fun m => by simp
  rw [Callbacks.drop, hl]
  constructor <;> simp only [Begun, hstates, hreceives, hstands, hdrop, hcancel, Ended, remove,
    Table.get?_erase, Table.contains_erase]
  · exact h.count
  · intro m k hk
    split at hk
    · cases hk
    · rename_i hm
      obtain ⟨hb, hd, hcode⟩ := h.login m k hk
      exact ⟨hb, not_or.2 ⟨hd, hm⟩, hcode⟩
  · intro m s hm hd
    obtain ⟨hd, hne⟩ := not_or.1 hd
    simp [h.alive m s hm hd, hne]
  · intro s m
    by_cases hs : s = l.state
    · simp [hs]
    · simp [hs, h.leads]
  · intro m s hm
    have hne : m ≠ n := hm.1.ne_of_begun hbegun hm.2
    rw [if_neg hne, h.waits m s hm.1]
  · intro m hm
    obtain (hm | rfl) | hm := hm
    · exact h.ended m (.inl hm)
    · exact hbegun.lt
    · exact h.ended m (.inr hm)

end Follows

theorem Free.follows {es : List Event} {c : Callbacks} (h : Free es c) : Follows es c := by
  induction h with
  | start => exact .start
  | begin state h ih => exact ih.begin state
  | @request es c pairs h ih =>
    obtain ⟨code, state, n, hnames, -, hn, heq⟩ | ⟨hstatus, hsame, -⟩ := receive_cases pairs c
    · rw [heq]
      exact ih.hand hnames hn
    · have hgrants : ∀ s a, ¬Event.Grants (.answered pairs (c.receive pairs).1) s a := by
        intro s a hg
        cases hstatus.symm.trans hg.1
      rw [hsame]
      refine ih.quiet (fun s hs => ?_) rfl hgrants nofun nofun
      obtain hs | ⟨a, hg⟩ | ⟨n, -, hs | hs⟩ := hs
      · cases hs
      · exact hgrants s a hg
      · cases hs
      · cases hs
  | settle limit h hn ih =>
    refine ih.quiet (fun s hs => ?_) rfl (fun _ _ hg => hg) nofun nofun
    obtain hs | ⟨_, hg⟩ | ⟨n, -, hs | hs⟩ := hs
    · cases hs
    · exact hg
    · cases hs
    · cases hs
  | cancel h hn ih => exact ih.cancel hn
  | drop h hn ih => exact ih.drop hn

section

variable {es before after : List Event} {c : Callbacks} {m n i j : Nat} {state code a b : String}

theorem states_split (before after : List Event) (state : String) :
    states (before ++ .begun state :: after) = states before ++ state :: states after := by
  simp [states, Event.state?]

theorem begun_length (before after : List Event) (state : String) :
    Begun (before ++ .begun state :: after) (states before).length state := by
  simp [Begun, states_split]

theorem stands_split : Stands (before ++ .begun state :: after) (states before).length state ↔
    ∀ e ∈ after, ¬Turns (before ++ .begun state :: after) state e := by
  constructor
  · intro h
    obtain ⟨before', after', heq, hn, hafter⟩ := h
    have hlonger : ∀ (xs ys : List Event) (s : String),
        (states (xs ++ .begun s :: ys)).length = (states xs).length + (states ys).length + 1 := by
      intro xs ys s
      simp [states_split, Nat.add_assoc]
    obtain ⟨xs, hxs, htail⟩ | ⟨xs, hxs, htail⟩ := List.append_eq_append_iff.1 heq
    · cases xs with
      | nil =>
        obtain ⟨-, rfl⟩ := List.cons.inj htail
        exact hafter
      | cons x xs =>
        obtain ⟨rfl, -⟩ := List.cons.inj htail
        rw [hxs, hlonger] at hn
        omega
    · cases xs with
      | nil =>
        obtain ⟨-, rfl⟩ := List.cons.inj htail
        exact hafter
      | cons x xs =>
        obtain ⟨rfl, -⟩ := List.cons.inj htail
        rw [hxs, hlonger] at hn
        omega
  · exact fun h => ⟨before, after, rfl, rfl, h⟩

theorem Follows.exists_login (h : Follows es c) (hn : Begun es n state) (hd : .dropped n ∉ es) :
    ∃ code?, c.logins.get? n = some ⟨state, code?⟩ ∧
      ∀ code, code? = some code ↔ ∃ i, Receives es i n code := by
  obtain ⟨l, hl⟩ := Option.isSome_iff_exists.1 (h.alive n state hn hd)
  obtain ⟨hbegun, -, hcode⟩ := h.login n l hl
  obtain rfl : l.state = state := hbegun.state_unique hn
  exact ⟨l.code, hl, hcode⟩

theorem Begun.exists_split (h : Begun es n state) :
    ∃ before after, es = before ++ .begun state :: after ∧ n = (states before).length := by
  induction es using List.reverseRecOn with
  | nil => simp [Begun, states] at h
  | append_singleton es e ih =>
    by_cases he : e = .begun state
    · subst he
      obtain hold | ⟨rfl, -⟩ := begun_begin.1 h
      · obtain ⟨before, after, rfl, hn⟩ := ih hold
        exact ⟨before, after ++ [.begun state], by simp, hn⟩
      · exact ⟨es, [], rfl, rfl⟩
    · obtain ⟨before, after, rfl, hn⟩ := ih ((begun_concat he).1 h)
      exact ⟨before, after ++ [e], by simp, hn⟩

theorem Free.exists_before {e : Event} (h : Free (before ++ e :: after) c) :
    ∃ c', Free before c' ∧ ∀ pairs reply, e = .answered pairs reply → reply = (c'.receive pairs).1 := by
  generalize hx : before ++ e :: after = es at h
  induction h generalizing after with
  | start => simp at hx
  | @request es c pairs h ih =>
    obtain rfl | ⟨after, d, rfl⟩ := after.eq_nil_or_concat'
    · obtain ⟨rfl, he⟩ := List.append_inj' hx rfl
      refine ⟨c, h, fun pairs reply hreply => ?_⟩
      cases hreply.symm.trans (List.singleton_inj.1 he)
      rfl
    · rw [← List.cons_append, ← List.append_assoc] at hx
      exact ih (List.append_inj' hx rfl).1
  | begin _ h ih | settle _ h _ ih | cancel h _ ih | drop h _ ih =>
    obtain rfl | ⟨after, d, rfl⟩ := after.eq_nil_or_concat'
    · obtain ⟨rfl, he⟩ := List.append_inj' hx rfl
      refine ⟨_, h, fun pairs reply hreply => ?_⟩
      cases hreply.symm.trans (List.singleton_inj.1 he)
    · rw [← List.cons_append, ← List.append_assoc] at hx
      exact ih (List.append_inj' hx rfl).1

theorem Free.exists_take {e : Event} (h : Free es c) (he : es[i]? = some e) :
    ∃ c', Free (es.take i) c' ∧ ∀ pairs reply, e = .answered pairs reply → reply = (c'.receive pairs).1 := by
  obtain ⟨hi, rfl⟩ := List.getElem?_eq_some_iff.1 he
  have hsplit : es.take i ++ es[i] :: es.drop (i + 1) = es := by
    rw [← List.drop_eq_getElem_cons hi, List.take_append_drop]
  rw [← hsplit] at h
  exact h.exists_before

theorem Free.received (h : Free es c) (hg : Granted es i state code) :
    ∃ n, Begun es n state ∧ Receives es i n code := by
  obtain ⟨e, he, hgrants⟩ := hg
  obtain ⟨c', hbefore, hreply⟩ := h.exists_take he
  cases e with
  | answered pairs reply =>
    obtain rfl := hreply pairs reply rfl
    obtain ⟨code', state', n, hnames, -, hn, -⟩ | ⟨hstatus, -⟩ := receive_cases pairs c'
    · obtain ⟨rfl, rfl⟩ := hgrants.2.unique hnames
      have hstands := (hbefore.follows.leads state n).1 hn
      exact ⟨n, hstands.begun_of_take, state, _, he, hgrants, hstands⟩
    · cases hstatus.symm.trans hgrants.1
  | _ => cases hgrants

theorem Free.receives_once (h : Free es c) (hi : Receives es i n a) (hj : Receives es j n b) : i = j := by
  have hfirst : ∀ i j a b, Receives es i n a → Receives es j n b → ¬i < j := by
    intro i j a b hi hj hlt
    obtain ⟨state, e, he, -, hstands⟩ := hj
    obtain ⟨c', hbefore, -⟩ := h.exists_take he
    -- When the later code came the login still waited, so that it had no code before.
    obtain ⟨-, -, hcode⟩ := hbefore.follows.login n _ (hbefore.follows.waits n state hstands)
    obtain ⟨state', e', he', hg, hstands'⟩ := hi
    cases (hcode a).2 ⟨i, state', e', by rw [List.getElem?_take_of_lt hlt, he'], hg,
      by rwa [List.take_take, Nat.min_eq_left (Nat.le_of_lt hlt)]⟩
  exact Nat.le_antisymm (Nat.le_of_not_lt (hfirst j i b a hj hi)) (Nat.le_of_not_lt (hfirst i j a b hi hj))

theorem Free.not_ended (h : Free es c) (hs : Stands es n state) : ¬Ended es n := by
  intro hended
  have hbegun := hs.begun
  obtain ⟨before, after, rfl, rfl, hafter⟩ := hs
  obtain ⟨c', hbefore, -⟩ := h.exists_before
  have hearlier : ¬Ended before (states before).length := fun he =>
    Nat.lt_irrefl _ (hbefore.follows.ended _ he)
  have hlater : ∀ e ∈ after, ¬(e = .dropped (states before).length ∨ e = .cancelled (states before).length) :=
    fun e he hends => hafter e he (.inr (.inr ⟨_, hbegun, hends⟩))
  obtain hd | hc := hended
  · obtain hd | hd := List.mem_append.1 hd
    · exact hearlier (.inl hd)
    · exact hlater _ (by simpa using hd) (.inl rfl)
  · obtain hc | hc := List.mem_append.1 hc
    · exact hearlier (.inr hc)
    · exact hlater _ (by simpa using hc) (.inr rfl)

end

structure Tracks (es : List Event) (c : Callbacks) : Prop where
  count : c.count = (states es).length
  distinct : (states es).Nodup
  login : ∀ n l, c.logins.get? n = some l → Begun es n l.state ∧ .dropped n ∉ es ∧
    ∀ code, l.code = some code ↔ ∃ i, Granted es i l.state code
  alive : ∀ n state, Begun es n state → .dropped n ∉ es → c.logins.contains n = true
  pending : ∀ state n, c.pending.get? state = some n ↔
    c.logins.get? n = some ⟨state, none⟩ ∧ .cancelled n ∉ es
  ended : ∀ n, Ended es n → n < (states es).length
  granted : ∀ i state code, Granted es i state code → state ∈ states es
  once : ∀ i j state a b, Granted es i state a → Granted es j state b → i = j

section

variable {es : List Event} {c : Callbacks} {n i : Nat} {state code : String}

theorem Run.free (h : Run es c) : Free es c := by
  induction h with
  | start => exact .start
  | begin _ _ ih => exact .begin _ ih
  | request pairs _ ih => exact .request pairs ih
  | settle limit _ hn ih => exact .settle limit ih hn
  | cancel _ hn ih => exact .cancel ih hn
  | drop _ hn ih => exact .drop ih hn

theorem Run.distinct (h : Run es c) : (states es).Nodup := by
  induction h with
  | start => exact List.nodup_nil
  | begin h hnew ih =>
    rw [states_begin, ← List.concat_eq_append]
    exact ih.concat fun hm => hnew (mem_states.1 hm)
  | request _ _ ih | settle _ _ _ ih | cancel _ _ ih | drop _ _ ih =>
    rw [states_concat_of_none rfl]
    exact ih

theorem begun_unique (h : (states es).Nodup) {m : Nat} (hn : Begun es n state) (hm : Begun es m state) :
    n = m :=
  (List.getElem?_inj hn.lt h).1 (hn.trans hm.symm)

/-- Where a state has one login, that gets the codes of the state. -/
theorem Run.receives_iff (h : Run es c) (hn : Begun es n state) :
    Receives es i n code ↔ Granted es i state code := by
  constructor
  · intro hr
    obtain ⟨s, e, he, hg, hstands⟩ := hr
    cases hstands.begun_of_take.symm.trans hn
    exact ⟨e, he, hg⟩
  · intro hg
    obtain ⟨m, hm, hr⟩ := h.free.received hg
    rwa [begun_unique h.distinct hn hm]

theorem Run.stands_iff (h : Run es c) :
    Stands es n state ↔ c.logins.get? n = some ⟨state, none⟩ ∧ .cancelled n ∉ es := by
  have hfollows := h.free.follows
  constructor
  · exact fun hs => ⟨hfollows.waits n state hs, fun hc => h.free.not_ended hs (.inr hc)⟩
  · intro hwaits
    obtain ⟨hlogin, hc⟩ := hwaits
    obtain ⟨hbegun, hd, hcode⟩ := hfollows.login n _ hlogin
    obtain ⟨before, after, rfl, rfl⟩ := hbegun.exists_split
    refine stands_split.2 fun e he hturns => ?_
    obtain ⟨i, hi⟩ := List.getElem?_of_mem (List.mem_append_right before (List.mem_cons_of_mem _ he))
    obtain rfl | ⟨code, hg⟩ | ⟨m, hm, hends⟩ := hturns
    · have hdistinct := h.distinct
      rw [states_split] at hdistinct
      exact (List.nodup_cons.1 (List.nodup_append.1 hdistinct).2.1).1 (mem_states.2 he)
    · cases (hcode code).2 ⟨i, (h.receives_iff hbegun).2 ⟨e, hi, hg⟩⟩
    · obtain rfl := begun_unique h.distinct hm hbegun
      obtain rfl | rfl := hends
      · exact hd (List.mem_of_getElem? hi)
      · exact hc (List.mem_of_getElem? hi)

theorem Run.tracks (h : Run es c) : Tracks es c where
  count := h.free.follows.count
  distinct := h.distinct
  login n l hl := by
    obtain ⟨hbegun, hd, hcode⟩ := h.free.follows.login n l hl
    exact ⟨hbegun, hd, fun code => (hcode code).trans (exists_congr fun i => h.receives_iff hbegun)⟩
  alive := h.free.follows.alive
  pending state n := (h.free.follows.leads state n).trans h.stands_iff
  ended := h.free.follows.ended
  granted i state code hg := by
    obtain ⟨n, hn, -⟩ := h.free.received hg
    exact hn.mem
  once i j state a b hi hj := by
    obtain ⟨n, hn, hr⟩ := h.free.received hi
    exact h.free.receives_once hr ((h.receives_iff hn).2 hj)

end

end Callbacks

end Muster
