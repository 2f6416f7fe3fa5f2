import Muster.Login.KeyCache
import Muster.Proofs.Authenticity

/-! The keys at hand are those of the last fetch that brought any, however the server answers and however
often the keys change. A token is judged under them, and under fresh ones if its key is not among them. -/

namespace Muster

variable {ω : Type}

namespace Http

abbrev Answer := Except (Halt String) Response

def Transport.noted (send : Transport ω) : Transport (ω × List Answer) := fun request c =>
  let (answer, w) := send request c.1
  (answer, w, c.2 ++ [answer])

theorem Transport.noted_of_eq {send : Transport ω} {request : Request} {answer : Answer} {w v : ω}
    (h : send request w = (answer, v)) (log : List Answer) :
    send.noted request (w, log) = (answer, v, log ++ [answer]) := by
  rw [noted, h]

end Http

theorem Work.ofExcept_apply {ε α : Type} (x : Except ε α) (w : ω) :
    Work.ofExcept x w = (x.mapError Halt.failed, w) := by
  cases x <;> rfl

namespace KeyCache

def request (url : String) : Http.Request := ⟨.get, url, Http.userAgent, none, none, none, ""⟩

def keysIn : Http.Answer → Except (Halt AuthError) KeySet
  | .ok r => (readKeys r).mapError .failed
  | .error h => .error (h.map .http)

def lastKeys (answers : List Http.Answer) : Option KeySet :=
  (answers.filterMap fun a => (keysIn a).toOption).getLast?

theorem lastKeys_append (answers more : List Http.Answer) :
    lastKeys (answers ++ more) = (lastKeys more).or (lastKeys answers) := by
  rw [lastKeys, List.filterMap_append, List.getLast?_append]
  rfl

theorem lastKeys_of_ok {a : Http.Answer} {ks : KeySet} (h : keysIn a = .ok ks) : lastKeys [a] = some ks := by
  rw [lastKeys, List.filterMap_cons, h]
  rfl

theorem lastKeys_of_error {a : Http.Answer} {e : Halt AuthError} (h : keysIn a = .error e) :
    lastKeys [a] = none := by
  rw [lastKeys, List.filterMap_cons, h]
  rfl

theorem lastKeys_of_failed {answers : List Http.Answer} (h : ∀ a ∈ answers, ∀ ks, keysIn a ≠ .ok ks) :
    lastKeys answers = none := by
  have hnone : (answers.filterMap fun a => (keysIn a).toOption) = [] := by
    refine List.filterMap_eq_nil_iff.2 fun a ha => ?_
    cases hkeys : keysIn a with
    | error e => rfl
    | ok ks => exact absurd hkeys (h a ha ks)
  rw [lastKeys, hnone, List.getLast?_nil]

section

variable (send : Http.Transport ω) (url client : String) (now : ω → Nat) (token : String)

/-- How a token is judged with some keys at hand: under them, and if its key is not among them, under those
of one more fetch, or not at all if that fetch fails. -/
inductive Judged (ks : KeySet) (w : ω) : List Http.Answer → Except (Halt AuthError) Identity → ω → Prop
  | known {r : Except AuthError Identity} :
    Identity.validate ks client (now w) token = r → (∀ kid, r ≠ .error (.unknownKey kid)) →
    Judged ks w [] (r.mapError .failed) w
  | renewed {kid : String} {a : Http.Answer} {fresh : KeySet} {v : ω} :
    Identity.validate ks client (now w) token = .error (.unknownKey kid) →
    send (request url) w = (a, v) → keysIn a = .ok fresh →
    Judged ks w [a] ((Identity.validate fresh client (now v) token).mapError .failed) v
  | stale {kid : String} {a : Http.Answer} {e : Halt AuthError} {v : ω} :
    Identity.validate ks client (now w) token = .error (.unknownKey kid) →
    send (request url) w = (a, v) → keysIn a = .error e → Judged ks w [a] (.error e) v

/-- The course of a call: keys are fetched first if none are at hand, and without any there is no
judgement. -/
inductive Course : KeyCache ω → List Http.Answer → Except (Halt AuthError) Identity → ω → Prop
  | cached {ks : KeySet} {w v : ω} {answers : List Http.Answer} {r : Except (Halt AuthError) Identity} :
    Judged send url client now token ks w answers r v → Course ⟨some ks, w⟩ answers r v
  | fetched {ks : KeySet} {w v u : ω} {a : Http.Answer} {answers : List Http.Answer}
    {r : Except (Halt AuthError) Identity} :
    send (request url) w = (a, v) → keysIn a = .ok ks → Judged send url client now token ks v answers r u →
    Course ⟨none, w⟩ (a :: answers) r u
  | refused {w v : ω} {a : Http.Answer} {e : Halt AuthError} :
    send (request url) w = (a, v) → keysIn a = .error e → Course ⟨none, w⟩ [a] (.error e) v

/-- Calls one after another, each for any client and token. Between them the world changes as it likes. -/
inductive Served : KeyCache (ω × List Http.Answer) → Prop
  | start (w : ω) : Served ⟨none, w, []⟩
  | elapse {keys : Option KeySet} {w : ω} {log : List Http.Answer} (v : ω) :
    Served ⟨keys, w, log⟩ → Served ⟨keys, v, log⟩
  | call {c : KeyCache (ω × List Http.Answer)} (client token : String) :
    Served c → Served (validate send.noted url client (fun w => now w.1) token c).2

end

variable {send : Http.Transport ω} {url client token : String} {now : ω → Nat} {c : KeyCache ω}
  {ks : KeySet} {w v : ω} {answers : List Http.Answer} {r : Except (Halt AuthError) Identity}

theorem fetch_of_eq {a : Http.Answer} (h : send (request url) c.world = (a, v)) :
    fetch send url c = (keysIn a, ⟨(lastKeys [a]).or c.keys, v⟩) := by
  have hsent : Work.focus KeyCache.world (fun w c => { c with world := w })
      ((send (request url)).mapError AuthError.http) c =
      (a.mapError (Halt.map .http), { c with world := v }) := by
    rw [Work.focus, Work.mapError, h]
    cases a <;> rfl
  rw [fetch, ← request]
  cases a with
  | error e =>
    rw [bind_of_error hsent]
    rfl
  | ok answer =>
    rw [bind_of_ok hsent]
    cases hread : readKeys answer with
    | error e =>
      have hkeys : keysIn (.ok answer) = .error (.failed e) := by
        rw [keysIn, hread]
        rfl
      rw [lastKeys_of_error hkeys, hkeys]
      rfl
    | ok ks =>
      have hkeys : keysIn (.ok answer) = .ok ks := by
        rw [keysIn, hread]
        rfl
      rw [lastKeys_of_ok hkeys, hkeys]
      rfl

theorem fetch_of_ok {a : Http.Answer} (h : send (request url) c.world = (a, v)) (hks : keysIn a = .ok ks) :
    fetch send url c = (.ok ks, ⟨some ks, v⟩) := by
  rw [fetch_of_eq h, lastKeys_of_ok hks, hks]
  rfl

theorem fetch_of_error {a : Http.Answer} {e : Halt AuthError} (h : send (request url) c.world = (a, v))
    (he : keysIn a = .error e) : fetch send url c = (.error e, ⟨c.keys, v⟩) := by
  rw [fetch_of_eq h, lastKeys_of_error he, he]
  rfl

theorem current_of_some (ks : KeySet) (w : ω) :
    current send url ⟨some ks, w⟩ = (.ok ks, ⟨some ks, w⟩) := rfl

theorem validate_of_current (h : current send url c = (.ok ks, ⟨some ks, v⟩)) :
    validate send url client now token c = validate send url client now token ⟨some ks, v⟩ := by
  rw [validate, bind_of_ok h, bind_of_ok (current_of_some ks v)]

theorem validate_of_known {x : Except AuthError Identity} (h : Identity.validate ks client (now w) token = x)
    (hknown : ∀ kid, x ≠ .error (.unknownKey kid)) :
    validate send url client now token ⟨some ks, w⟩ = (x.mapError .failed, ⟨some ks, w⟩) := by
  rw [validate, bind_of_ok (current_of_some ks w), get_bind_apply]
  dsimp only
  rw [h]
  split
  · rename_i kid
    exact absurd rfl (hknown kid)
  · exact Work.ofExcept_apply _ _

theorem validate_of_unknown {kid : String}
    (h : Identity.validate ks client (now w) token = .error (.unknownKey kid)) :
    validate send url client now token ⟨some ks, w⟩ = (do
      let fresh ← fetch send url
      Work.ofExcept (Identity.validate fresh client (now (← get).world) token)) ⟨some ks, w⟩ := by
  rw [validate, bind_of_ok (current_of_some ks w), get_bind_apply]
  dsimp only
  rw [h]

theorem Judged.validate_eq (h : Judged send url client now token ks w answers r v) :
    validate send url client now token ⟨some ks, w⟩ = (r, ⟨(lastKeys answers).or (some ks), v⟩) := by
  cases h with
  | known hvalidate hknown => exact validate_of_known hvalidate hknown
  | renewed hunknown hsend hfresh =>
    rw [validate_of_unknown hunknown, bind_of_ok (fetch_of_ok hsend hfresh), lastKeys_of_ok hfresh]
    exact Work.ofExcept_apply _ _
  | stale hunknown hsend he =>
    rw [validate_of_unknown hunknown, bind_of_error (fetch_of_error hsend he), lastKeys_of_error he]
    rfl

theorem Course.validate_eq (h : Course send url client now token c answers r v) :
    validate send url client now token c = (r, ⟨(lastKeys answers).or c.keys, v⟩) := by
  cases h with
  | cached hjudged => exact hjudged.validate_eq
  | @fetched ks w u _ a answers _ hsend hks hjudged =>
    have hcurrent : current send url ⟨none, w⟩ = (.ok ks, ⟨some ks, u⟩) := fetch_of_ok hsend hks
    rw [validate_of_current hcurrent, hjudged.validate_eq, ← List.singleton_append, lastKeys_append,
      lastKeys_of_ok hks, Option.or_assoc]
    rfl
  | @refused w _ a e hsend he =>
    have hcurrent : current send url ⟨none, w⟩ = (.error e, ⟨none, v⟩) := fetch_of_error hsend he
    rw [validate, bind_of_error hcurrent, lastKeys_of_error he]
    rfl

theorem exists_judged (ks : KeySet) (w : ω) :
    ∃ answers r v, Judged send url client now token ks w answers r v := by
  by_cases hunknown : ∃ kid, Identity.validate ks client (now w) token = .error (.unknownKey kid)
  · obtain ⟨kid, hkid⟩ := hunknown
    obtain ⟨⟨a, v⟩, hsend⟩ : ∃ x, send (request url) w = x := ⟨_, rfl⟩
    cases ha : keysIn a with
    | error e => exact ⟨_, _, _, .stale hkid hsend ha⟩
    | ok fresh => exact ⟨_, _, _, .renewed hkid hsend ha⟩
  · exact ⟨_, _, _, .known rfl fun kid hkid => hunknown ⟨kid, hkid⟩⟩

theorem exists_course (c : KeyCache ω) : ∃ answers r v, Course send url client now token c answers r v := by
  obtain ⟨_ | ks, w⟩ := c
  · obtain ⟨⟨a, v⟩, hsend⟩ : ∃ x, send (request url) w = x := ⟨_, rfl⟩
    cases ha : keysIn a with
    | error e => exact ⟨_, _, _, .refused hsend ha⟩
    | ok ks =>
      obtain ⟨answers, r, u, hjudged⟩ := exists_judged ks v
      exact ⟨_, _, _, .fetched hsend ha hjudged⟩
  · obtain ⟨answers, r, v, hjudged⟩ := exists_judged ks w
    exact ⟨_, _, _, .cached hjudged⟩

/-! To note the answers changes nothing -/

theorem Judged.noted (h : Judged send url client now token ks w answers r v) (log : List Http.Answer) :
    Judged send.noted url client (fun w => now w.1) token ks (w, log) answers r (v, log ++ answers) := by
  cases h with
  | known hvalidate hknown =>
    rw [List.append_nil]
    exact .known hvalidate hknown
  | @renewed _ a fresh _ hunknown hsend hfresh =>
    exact .renewed (v := (v, log ++ [a])) hunknown (Http.Transport.noted_of_eq hsend log) hfresh
  | stale hunknown hsend he => exact .stale hunknown (Http.Transport.noted_of_eq hsend log) he

theorem Course.noted (h : Course send url client now token c answers r v) (log : List Http.Answer) :
    Course send.noted url client (fun w => now w.1) token ⟨c.keys, c.world, log⟩ answers r
      (v, log ++ answers) := by
  cases h with
  | cached hjudged => exact .cached (hjudged.noted log)
  | @fetched _ _ _ _ a answers _ hsend hks hjudged =>
    rw [← List.singleton_append, ← List.append_assoc]
    exact .fetched (Http.Transport.noted_of_eq hsend log) hks (hjudged.noted (log ++ [a]))
  | refused hsend he => exact .refused (Http.Transport.noted_of_eq hsend log) he

theorem Course.noted_validate_eq (h : Course send url client now token c answers r v)
    (log : List Http.Answer) (hkeys : c.keys = lastKeys log) :
    validate send.noted url client (fun w => now w.1) token ⟨c.keys, c.world, log⟩ =
      (r, ⟨lastKeys (log ++ answers), v, log ++ answers⟩) := by
  rw [(h.noted log).validate_eq, lastKeys_append, hkeys]

/-- Neither a call nor what happens between calls puts other keys at hand than the last that were fetched. -/
theorem Served.keys_eq {c : KeyCache (ω × List Http.Answer)} (h : Served send url now c) :
    c.keys = lastKeys c.world.2 := by
  induction h with
  | start => rfl
  | elapse _ _ ih => exact ih
  | @call c client token _ ih =>
    obtain ⟨answers, r, v, hcourse⟩ : ∃ answers r v,
        Course send url client now token ⟨c.keys, c.world.1⟩ answers r v := exists_course _
    have hcall := hcourse.noted_validate_eq c.world.2 ih
    rw [hcall]

/-! How many fetches there are -/

theorem Judged.length_le (h : Judged send url client now token ks w answers r v) : answers.length ≤ 1 := by
  cases h with
  | known => exact Nat.zero_le 1
  | renewed => exact Nat.le_refl 1
  | stale => exact Nat.le_refl 1

theorem Course.length_le (h : Course send url client now token c answers r v) : answers.length ≤ 2 := by
  cases h with
  | cached hjudged => exact Nat.le_succ_of_le hjudged.length_le
  | fetched _ _ hjudged => exact Nat.succ_le_succ hjudged.length_le
  | refused => exact Nat.le_succ 1

theorem Judged.answers_eq_nil_iff (h : Judged send url client now token ks w answers r v) :
    answers = [] ↔ ∀ kid, Identity.validate ks client (now w) token ≠ .error (.unknownKey kid) := by
  cases h with
  | known hvalidate hknown => simp [hvalidate, hknown]
  | renewed hunknown => simp [hunknown]
  | stale hunknown => simp [hunknown]

theorem Course.answers_eq_nil_iff (h : Course send url client now token c answers r v) :
    answers = [] ↔ ∃ ks, c.keys = some ks ∧
      ∀ kid, Identity.validate ks client (now c.world) token ≠ .error (.unknownKey kid) := by
  cases h with
  | cached hjudged => simp [hjudged.answers_eq_nil_iff]
  | fetched => simp
  | refused => simp

theorem Course.answers_eq_nil_of_entry (h : Course send url client now token c answers r v)
    (hks : c.keys = some ks) {t : AccessToken} {head : TokenHeader} {key : SigningKey}
    (ht : t.Written token) (hhead : TokenHeader.read t = .ok head) (hkey : ks.Entry head.kid key) :
    answers = [] := by
  refine h.answers_eq_nil_iff.2 ⟨ks, hks, fun kid hunknown => ?_⟩
  obtain ⟨t', head', ht', hhead', hnone, -⟩ := Identity.validate_eq_unknownKey.1 hunknown
  rw [AccessToken.split?_eq_some_iff.2 ht] at ht'
  cases ht'
  rw [hhead] at hhead'
  cases hhead'
  exact KeySet.find?_eq_none_iff.1 hnone key hkey

/-- After any run of calls the keys at hand are those of the last fetch that brought any. The next call
takes the course that is described above, whether its fetches are noted or not. Those that fail leave the
keys as they are. It makes two at most, and none just when there are keys at hand and they tell what the
token is worth, as they do when the key of the token is among them. -/
theorem Served.keeps_last_fetched {c : KeyCache (ω × List Http.Answer)} (h : Served send url now c)
    (client token : String) :
    c.keys = lastKeys c.world.2 ∧ ∃ answers r w,
      Course send url client now token ⟨c.keys, c.world.1⟩ answers r w ∧
      validate send url client now token ⟨c.keys, c.world.1⟩ =
        (r, ⟨lastKeys (c.world.2 ++ answers), w⟩) ∧
      validate send.noted url client (fun w => now w.1) token c =
        (r, ⟨lastKeys (c.world.2 ++ answers), w, c.world.2 ++ answers⟩) ∧
      ((∀ a ∈ answers, ∀ ks, keysIn a ≠ .ok ks) → lastKeys (c.world.2 ++ answers) = c.keys) ∧
      answers.length ≤ 2 ∧
      (answers = [] ↔ ∃ ks, c.keys = some ks ∧
        ∀ kid, Identity.validate ks client (now c.world.1) token ≠ .error (.unknownKey kid)) ∧
      ∀ ks t head key, c.keys = some ks → t.Written token → TokenHeader.read t = .ok head →
        ks.Entry head.kid key → answers = [] := by
  have hkeys := h.keys_eq
  obtain ⟨answers, r, w, hcourse⟩ : ∃ answers r w,
      Course send url client now token ⟨c.keys, c.world.1⟩ answers r w := exists_course _
  refine ⟨hkeys, answers, r, w, hcourse, ?_, hcourse.noted_validate_eq c.world.2 hkeys, fun hfailed => ?_,
    hcourse.length_le, hcourse.answers_eq_nil_iff, fun ks t head key hks ht hhead hkey =>
      hcourse.answers_eq_nil_of_entry hks ht hhead hkey⟩
  · rw [hcourse.validate_eq, lastKeys_append, hkeys]
  · rw [lastKeys_append, lastKeys_of_failed hfailed, hkeys]
    rfl

/-! A server that is out of order at first, and then changes its keys -/

def dictated : Http.Transport (List Http.Answer) := fun _ told =>
  match told with
  | [] => (.error .stalled, [])
  | answer :: told => (answer, told)

def outage : Http.Answer := .ok ⟨⟨503⟩, ""⟩

def noKeys : Http.Answer := .ok ⟨⟨200⟩, "\x7b\"keys\":[]\x7d"⟩

def rotated : KeySet := ⟨[⟨some "JWT-Signature-Key", .rsa "AQAB" "AQAB"⟩]⟩

def rotation : Http.Answer := .ok ⟨⟨200⟩,
  "\x7b\"keys\":[\x7b\"kty\":\"RSA\",\"kid\":\"JWT-Signature-Key\",\"n\":\"AQAB\",\"e\":\"AQAB\"\x7d]\x7d"⟩

theorem keysIn_noKeys : keysIn noKeys = .ok ⟨[]⟩ := by decide +kernel

theorem keysIn_rotation : keysIn rotation = .ok rotated := by decide +kernel

theorem validate_loneText_of_noKeys :
    Identity.validate ⟨[]⟩ "client-1" 1800000000 Identity.loneText =
      .error (.unknownKey "JWT-Signature-Key") :=
  Identity.validate_eq_unknownKey.2
    ⟨Identity.loneToken, _, Identity.split?_loneText, Identity.read_loneToken, rfl, rfl⟩

def verdict : Except (Halt AuthError) Identity :=
  (Identity.validate rotated "client-1" 1800000000 Identity.loneText).mapError .failed

/-! The first two calls -/

theorem validate_of_outage :
    validate dictated.noted "" "client-1" (fun _ => 1800000000) Identity.loneText
      ⟨none, [outage, noKeys, rotation], []⟩ =
      (.error (.failed (.sso ⟨503⟩ "")), ⟨none, [noKeys, rotation], [outage]⟩) := by
  have hcourse : Course dictated "" "client-1" (fun _ => 1800000000) Identity.loneText
      ⟨none, [outage, noKeys, rotation]⟩ [outage] (.error (.failed (.sso ⟨503⟩ ""))) [noKeys, rotation] :=
    .refused rfl rfl
  exact hcourse.noted_validate_eq [] rfl

theorem lastKeys_of_rotation : lastKeys [outage, noKeys, rotation] = some rotated := by decide +kernel

theorem validate_of_rotation :
    validate dictated.noted "" "client-1" (fun _ => 1800000000) Identity.loneText
      ⟨none, [noKeys, rotation], [outage]⟩ =
      (verdict, ⟨some rotated, [], [outage, noKeys, rotation]⟩) := by
  have hcourse : Course dictated "" "client-1" (fun _ => 1800000000) Identity.loneText
      ⟨none, [noKeys, rotation]⟩ [noKeys, rotation] verdict [] :=
    .fetched rfl keysIn_noKeys (.renewed validate_loneText_of_noKeys rfl keysIn_rotation)
  rw [← lastKeys_of_rotation]
  exact hcourse.noted_validate_eq [outage] rfl

/-- After a call that failed, and one that fetched keys twice since the key of its token was not among the
first, a third call for the token needs no fetch. -/
theorem rotation_after_outage :
    Served dictated "" (fun _ => 1800000000) ⟨some rotated, [], [outage, noKeys, rotation]⟩ ∧
    validate dictated.noted "" "client-1" (fun _ => 1800000000) Identity.loneText
      ⟨some rotated, [], [outage, noKeys, rotation]⟩ =
      (verdict, ⟨some rotated, [], [outage, noKeys, rotation]⟩) := by
  have hserved : Served dictated "" (fun _ => 1800000000) ⟨none, [outage, noKeys, rotation], []⟩ :=
    .start _
  have hfirst := hserved.call "client-1" Identity.loneText
  rw [validate_of_outage] at hfirst
  have hsecond := hfirst.call "client-1" Identity.loneText
  rw [validate_of_rotation] at hsecond
  obtain ⟨-, answers, r, w, hcourse, -, hthird, -, -, -, hnone⟩ :=
    hsecond.keeps_last_fetched "client-1" Identity.loneText
  obtain rfl := hnone rotated _ _ _ rfl (AccessToken.split?_eq_some_iff.1 Identity.split?_loneText)
    Identity.read_loneToken (KeySet.find?_eq_some_iff.1 rfl)
  refine ⟨hsecond, hthird.trans ?_⟩
  cases hcourse with
  | cached hjudged =>
    cases hjudged with
    | known hvalidate =>
      rw [← hvalidate, List.append_nil, lastKeys_of_rotation]
      rfl

end KeyCache

end Muster
