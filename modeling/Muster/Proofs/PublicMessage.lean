import Muster.App

/-! What users see of an error is made of the messages that are meant for them, however the error came to be;
internal messages and other causes are seen in the log alone. -/

namespace Muster.PublicError

mutual

/-- How an error comes to be: it begins with a message, then internal messages and causes are attached. -/
inductive Making where
  | new (text : String)
  | internal (m : Making) (text : String)
  | cause (m : Making) (c : Cause)

/-- What can be a cause: an error for users again, or any other error, perhaps with a source of its own. -/
inductive Cause where
  | shown (m : Making)
  | plain (text : String)
  | wrapped (text : String) (source : Cause)

end

mutual

def Making.error : Making → PublicError
  | .new text => .new text
  | .internal m text => m.error.withInternal text
  | .cause m (.shown p) => m.error.withPublic p.error
  | .cause m c => m.error.withHidden c.chain

def Cause.chain : Cause → List String
  | .shown m => m.error.chain
  | .plain text => [text]
  | .wrapped text source => text :: source.chain

end

namespace Making

def start : Making → String
  | new text => text
  | internal m _ => m.start
  | cause m _ => m.start

def publics : Making → List Making
  | new _ => []
  | internal m _ => m.publics
  | cause m (.shown p) => m.publics ++ [p]
  | cause m _ => m.publics

def lastInternal? : Making → Option String
  | new _ => none
  | internal _ text => some text
  | cause m _ => m.lastInternal?

def lastCause? : Making → Option Cause
  | new _ => none
  | internal m _ => m.lastCause?
  | cause _ c => some c

end Making

namespace Cause

def Hidden : Cause → Prop
  | shown _ => False
  | _ => True

def text : Cause → String
  | shown m => m.error.message
  | plain text => text
  | wrapped text _ => text

def source? : Cause → Option Cause
  | shown m => m.lastCause?
  | plain _ => none
  | wrapped _ source => some source

end Cause

inductive Chained : Option Cause → List String → Prop
  | done : Chained none []
  | next {c : Cause} {texts : List String} : Chained c.source? texts → Chained (some c) (c.text :: texts)

/-- The two differ in internal messages and in causes that are not for users, and in nothing else. -/
inductive Alike : Making → Making → Prop
  | new (text : String) : Alike (.new text) (.new text)
  | shown {m m' p p' : Making} : Alike m m' → Alike p p' →
    Alike (.cause m (.shown p)) (.cause m' (.shown p'))
  | internalLeft {m m' : Making} {text : String} : Alike m m' → Alike (.internal m text) m'
  | internalRight {m m' : Making} {text : String} : Alike m m' → Alike m (.internal m' text)
  | hiddenLeft {m m' : Making} {c : Cause} : c.Hidden → Alike m m' → Alike (.cause m c) m'
  | hiddenRight {m m' : Making} {c : Cause} : c.Hidden → Alike m m' → Alike m (.cause m' c)

variable {m m' : Making} {c : Cause}

theorem error_cause_of_hidden (h : c.Hidden) (m : Making) :
    (m.cause c).error = m.error.withHidden c.chain := by
  cases c with
  | shown p => exact h.elim
  | plain text => simp only [Making.error]
  | wrapped text source => simp only [Making.error]

theorem message_withPublic (e cause : PublicError) :
    (e.withPublic cause).message = e.message ++ (": " ++ cause.message) := by
  rw [← String.append_assoc]
  rfl

theorem message_eq : ∀ m : Making,
    m.error.message = m.start ++ String.join (m.publics.map fun p => ": " ++ p.error.message)
  | .new text => by simp [Making.error, PublicError.new, Making.start, Making.publics]
  | .internal m text => message_eq m
  | .cause m c => by
    have ih := message_eq m
    cases c with
    | shown p =>
      rw [Making.error, message_withPublic, ih, Making.start, Making.publics, List.map_append,
        String.join_append, String.append_assoc]
      simp
    | plain text => exact ih
    | wrapped text source => exact ih

mutual

theorem chained_causes : ∀ m : Making, Chained m.lastCause? m.error.causes
  | .new _ => .done
  | .internal m _ => chained_causes m
  | .cause _ (.shown p) => chained_chain (.shown p)
  | .cause _ (.plain text) => chained_chain (.plain text)
  | .cause _ (.wrapped text source) => chained_chain (.wrapped text source)

theorem chained_chain : ∀ c : Cause, Chained (some c) c.chain
  | .shown m => .next (chained_causes m)
  | .plain _ => .next .done
  | .wrapped _ source => .next (chained_chain source)

end

theorem internalError_eq (e : PublicError) :
    e.internalError = e.internal.getD e.message ++ String.join (e.causes.map (": " ++ ·)) := by
  have hfold (texts : List String) (out : String) :
      texts.foldl (fun out text => s!"{out}: {text}") out = out ++ String.join (texts.map (": " ++ ·)) := by
    induction texts generalizing out with
    | nil => simp
    | cons text texts ih =>
      have hout : s!"{out}: {text}" = out ++ (": " ++ text) := by
        rw [← String.append_assoc]
        rfl
      rw [List.foldl_cons, ih, hout, List.map_cons, String.join_cons, String.append_assoc]
  exact hfold e.causes _

theorem internal_eq : ∀ m : Making, m.error.internal = m.lastInternal?
  | .new _ => rfl
  | .internal _ _ => rfl
  | .cause m (.shown _) => internal_eq m
  | .cause m (.plain _) => internal_eq m
  | .cause m (.wrapped _ _) => internal_eq m

theorem Alike.message_eq (h : Alike m m') : m.error.message = m'.error.message := by
  induction h with
  | new text => rfl
  | shown hm hp ihm ihp => rw [Making.error, Making.error, message_withPublic, message_withPublic, ihm, ihp]
  | internalLeft h ih => exact ih
  | internalRight h ih => exact ih
  | hiddenLeft hc h ih =>
    rw [error_cause_of_hidden hc]
    exact ih
  | hiddenRight hc h ih =>
    rw [error_cause_of_hidden hc]
    exact ih

def Shows (e : PublicError) (text : String) : Prop :=
  e.message = text ∧ e.chain.head? = some text ∧ e.report.1 = text

/-- An error shows the message that it began with and those of the errors for users that were attached, and
errors that differ in nothing else show the same. The log has one line for it, with the internal message
given last and the texts of the cause attached last and of its sources. -/
theorem users_see_what_is_meant_for_them :
    (∀ m : Making, m.error.Shows (m.start ++ String.join (m.publics.map fun p => ": " ++ p.error.message))) ∧
    (∀ m m' : Making, Alike m m' → ∃ text, m.error.Shows text ∧ m'.error.Shows text) ∧
    ∀ m : Making, ∃ texts, Chained m.lastCause? texts ∧ m.error.report.2 =
      ["[application error] " ++
        (m.lastInternal?.getD m.error.message ++ String.join (texts.map (": " ++ ·)))] := by
  refine ⟨fun m => ?_, fun m m' h => ?_, fun m => ?_⟩
  · rw [← message_eq m]
    exact ⟨rfl, rfl, rfl⟩
  · exact ⟨m.error.message, ⟨rfl, rfl, rfl⟩, ⟨h.message_eq.symm, congrArg some h.message_eq.symm, h.message_eq.symm⟩⟩
  · refine ⟨m.error.causes, chained_causes m, ?_⟩
    rw [← internal_eq, ← internalError_eq]
    rfl

theorem refused_sync_shows_no_causes :
    let expired := (Making.new "token expired").cause (.wrapped "token refresh failed: 400" (.plain "400"))
    let m := (((Making.new "Could not refresh").cause (.plain "database lock poisoned")).cause
      (.shown (expired.internal "exp is past"))).internal "sync of 77"
    let m' := (Making.new "Could not refresh").cause (.shown (.new "token expired"))
    Alike m m' ∧ (∃ text, m.error.Shows text ∧ m'.error.Shows text) ∧
      m.error.Shows "Could not refresh: token expired" ∧ m.error.report.2 =
        ["[application error] sync of 77: token expired: token refresh failed: 400: 400"] := by
  intro expired m m'
  have halike : Alike m m' := .internalLeft (.shown (.hiddenLeft trivial (.new _))
    (.internalLeft (.hiddenLeft trivial (.new _))))
  obtain ⟨-, hsame, -⟩ := users_see_what_is_meant_for_them
  exact ⟨halike, hsame m m' halike, ⟨by decide +kernel, by decide +kernel, by decide +kernel⟩, by decide +kernel⟩

end Muster.PublicError
