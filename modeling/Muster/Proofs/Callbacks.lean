import Muster.Login.Callbacks
import Muster.Proofs.Table

/-! What happens at the callback server, in any order, and what its answers so far tell of the logins. -/

namespace Muster

namespace CallbackQuery

def values (field : String) (pairs : List (String × String)) : List String :=
  (pairs.filter (·.1 = field)).map (·.2)

/-- The code and the state that a query names: neither field comes twice, and one that does not come
is empty. -/
structure Names (pairs : List (String × String)) (code state : String) : Prop where
  code_once : (values "code" pairs).length ≤ 1
  state_once : (values "state" pairs).length ≤ 1
  code_eq : (values "code" pairs).headD "" = code
  state_eq : (values "state" pairs).headD "" = state

theorem Names.unique {pairs : List (String × String)} {code code' state state' : String}
    (h : Names pairs code state) (h' : Names pairs code' state') : code = code' ∧ state = state' :=
  ⟨h.code_eq.symm.trans h'.code_eq, h.state_eq.symm.trans h'.state_eq⟩

theorem values_cons (field : String) (p : String × String) (ps : List (String × String)) :
    values field (p :: ps) = if p.1 = field then p.2 :: values field ps else values field ps := by
  rw [values, List.filter_cons]
  by_cases h : p.1 = field <;> simp [h, values]

theorem read_eq_ok {pairs : List (String × String)} {q r : CallbackQuery} :
    read pairs q = .ok r ↔
      (q.code.toList ++ values "code" pairs).length ≤ 1 ∧
      (q.state.toList ++ values "state" pairs).length ≤ 1 ∧
      r = ⟨q.code.or (values "code" pairs).head?, q.state.or (values "state" pairs).head?⟩ := by
  fun_induction read pairs q with
  | case1 q =>
    obtain ⟨_ | c, _ | s⟩ := q <;> simp [values, eq_comm]
  | case2 v ps q h =>
    obtain ⟨c, hc⟩ := Option.isSome_iff_exists.1 h
    simp [values_cons, hc]
  | case3 v ps q h ih =>
    rw [ih]
    simp at h
    simp [values_cons, h]
  | case4 v ps q h =>
    obtain ⟨c, hc⟩ := Option.isSome_iff_exists.1 h
    simp [values_cons, hc]
  | case5 v ps q h ih =>
    rw [ih]
    simp at h
    simp [values_cons, h]
  | case6 p ps q hcode hstate ih =>
    have hcode : p.1 ≠ "code" := fun h => hcode p.2 (by rw [← h])
    have hstate : p.1 ≠ "state" := fun h => hstate p.2 (by rw [← h])
    rw [ih]
    simp [values_cons, hcode, hstate]

theorem names_of_read {pairs : List (String × String)} {q : CallbackQuery}
    (h : read pairs ⟨none, none⟩ = .ok q) : Names pairs (q.code.getD "") (q.state.getD "") := by
  obtain ⟨hcode, hstate, rfl⟩ := read_eq_ok.1 h
  exact ⟨by simpa using hcode, by simpa using hstate, by simp [List.headD_eq_head?_getD],
    by simp [List.headD_eq_head?_getD]⟩

theorem Names.read {pairs : List (String × String)} {code state : String}
    (h : Names pairs code state) : ∃ q, read pairs ⟨none, none⟩ = .ok q :=
  ⟨_, read_eq_ok.2 ⟨by simpa using h.code_once, by simpa using h.state_once, rfl⟩⟩

end CallbackQuery

open CallbackQuery (Names)

namespace Callbacks

def hand (n : Nat) (state code : String) (c : Callbacks) : Callbacks :=
  { c.remove state with logins := c.logins.adjust n fun l => { l with code := some code } }

/-- A request hands its code to the login that its state leads to, or does nothing. -/
theorem receive_cases (pairs : List (String × String)) (c : Callbacks) :
    (∃ code state n, Names pairs code state ∧ code ≠ "" ∧ c.pending.get? state = some n ∧
      c.receive pairs = (⟨⟨200⟩, "ok"⟩, c.hand n state code)) ∨
    ((c.receive pairs).1.status = ⟨400⟩ ∧ (c.receive pairs).2 = c ∧
      ∀ code state, Names pairs code state → code ≠ "" → c.pending.get? state = none) := by
  rw [receive]
  cases hread : CallbackQuery.read pairs ⟨none, none⟩ with
  | error field =>
    refine .inr ⟨rfl, rfl, fun code state h => ?_⟩
    obtain ⟨q, hq⟩ := h.read
    cases hread.symm.trans hq
  | ok q =>
    have hnames := CallbackQuery.names_of_read hread
    by_cases hempty : q.code.getD "" = ""
    · have hisEmpty : (q.code.getD "").isEmpty = true := by simpa using hempty
      simp only [hisEmpty, if_true]
      exact .inr ⟨trivial, trivial, fun code state h hcode =>
        absurd ((h.unique hnames).1.trans hempty) hcode⟩
    · have hisEmpty : (q.code.getD "").isEmpty = false := by simpa using hempty
      simp only [hisEmpty, Bool.false_eq_true, if_false, deliver]
      cases hfound : c.pending.get? (q.state.getD "") with
      | none =>
        refine .inr ⟨rfl, rfl, fun code state h _ => ?_⟩
        rw [(h.unique hnames).2, hfound]
      | some n => exact .inl ⟨_, _, n, hnames, hempty, hfound, rfl⟩

/-- What happens at the callback server: a login begins with its state, a request is answered, what
a login waits for is settled, a registration is withdrawn, or the handle of a login goes. -/
inductive Event where
  | begun (state : String)
  | answered (pairs : List (String × String)) (reply : Reply)
  | settled (n : Nat) (result : Except AuthError String)
  | cancelled (n : Nat)
  | dropped (n : Nat)

namespace Event

def state? : Event → Option String
  | begun state => some state
  | _ => none

def Grants : Event → String → String → Prop
  | answered pairs reply, state, code => reply.status = ⟨200⟩ ∧ Names pairs code state
  | _, _, _ => False

theorem Grants.code_unique {e : Event} {state code code' : String} (h : e.Grants state code)
    (h' : e.Grants state code') : code = code' := by
  cases e with
  | answered pairs reply => exact (h.2.unique h'.2).1
  | _ => cases h

end Event

/-- All that may happen, in any order, with what is answered. The handle of a login stays when the
wait for its code is settled, so that a request may come before it goes. -/
inductive Run : List Event → Callbacks → Prop
  | start : Run [] empty
  | begin {es : List Event} {c : Callbacks} {state : String} (h : Run es c)
      (hnew : .begun state ∉ es) : Run (es ++ [.begun state]) (c.expect state).2
  | request {es : List Event} {c : Callbacks} (pairs : List (String × String)) (h : Run es c) :
      Run (es ++ [.answered pairs (c.receive pairs).1]) (c.receive pairs).2
  | settle {es : List Event} {c : Callbacks} {n : Nat} (limit : Duration) (h : Run es c)
      (hn : c.logins.contains n = true) : Run (es ++ [.settled n (c.verdict n limit)]) c
  | cancel {es : List Event} {c : Callbacks} {n : Nat} {l : PendingLogin} (h : Run es c)
      (hn : c.logins.get? n = some l) : Run (es ++ [.cancelled n]) (c.remove l.state)
  | drop {es : List Event} {c : Callbacks} {n : Nat} (h : Run es c)
      (hn : c.logins.contains n = true) : Run (es ++ [.dropped n]) (c.drop n)

/-- The states that logins began with; a login is the number of its own. -/
def states (es : List Event) : List String := es.filterMap Event.state?

def Begun (es : List Event) (n : Nat) (state : String) : Prop := (states es)[n]? = some state

/-- The handle of a login is gone, or its registration was withdrawn. -/
def Ended (es : List Event) (n : Nat) : Prop := .dropped n ∈ es ∨ .cancelled n ∈ es

def Granted (es : List Event) (i : Nat) (state code : String) : Prop :=
  ∃ e, es[i]? = some e ∧ e.Grants state code

def Delivered (es : List Event) (i n : Nat) (code : String) : Prop :=
  ∃ state, Begun es n state ∧ Granted es i state code

/-- A login that is alive and has no code. -/
structure Waits (es : List Event) (n : Nat) (state : String) : Prop where
  begun : Begun es n state
  alive : ¬Ended es n
  unanswered : ∀ i code, ¬Delivered es i n code

section

variable {es : List Event} {e : Event} {n i : Nat} {state code : String}

theorem states_concat_of_none (h : e.state? = none) : states (es ++ [e]) = states es := by
  simp [states, h]

theorem states_begin (state : String) : states (es ++ [.begun state]) = states es ++ [state] := by
  simp [states, Event.state?]

theorem mem_states : state ∈ states es ↔ .begun state ∈ es := by
  rw [states, List.mem_filterMap]
  constructor
  · rintro ⟨_ | _ | _ | _ | _, he, hs⟩ <;> cases hs
    exact he
  · exact fun h => ⟨_, h, rfl⟩

theorem Begun.lt (h : Begun es n state) : n < (states es).length :=
  (List.getElem?_eq_some_iff.1 h).1

theorem Begun.mem (h : Begun es n state) : state ∈ states es := List.mem_of_getElem? h

theorem Begun.state_unique {s : String} (h : Begun es n s) (h' : Begun es n state) : s = state :=
  Option.some.inj (h.symm.trans h')

theorem delivered_iff (hn : Begun es n state) :
    Delivered es i n code ↔ Granted es i state code := by
  constructor
  · rintro ⟨s, hs, hg⟩
    cases hs.symm.trans hn
    exact hg
  · exact fun hg => ⟨state, hn, hg⟩

theorem Begun.append (h : Begun es n state) (more : List Event) : Begun (es ++ more) n state := by
  rw [Begun, states, List.filterMap_append]
  exact List.getElem?_append_left h.lt ▸ h

theorem Delivered.append (h : Delivered es i n code) (more : List Event) :
    Delivered (es ++ more) i n code := by
  obtain ⟨state, hn, e, he, hg⟩ := h
  have hi : i < es.length := (List.getElem?_eq_some_iff.1 he).1
  exact ⟨state, hn.append more, e, List.getElem?_append_left hi ▸ he, hg⟩

theorem begun_begin {s : String} :
    Begun (es ++ [.begun s]) n state ↔
      Begun es n state ∨ n = (states es).length ∧ s = state := by
  rw [Begun, Begun, states_begin, List.getElem?_append]
  split
  · rename_i h
    simp [Nat.ne_of_lt h]
  · rename_i h
    simp [h]
    grind

end

end Callbacks

end Muster
