import Muster.Config.File
import Muster.Proofs.Completion
import Muster.Proofs.Keeps

/-! Loading leaves what others put in the place of the configuration file. Only where nothing is a file appears,
and it says the same as if there were none: the defaults. So calls answer as if the program never wrote. -/

namespace Muster.ConfigPlace

inductive Call where
  | create
  | load (env : String → Option String)

/-- What happens in the place of the configuration: a call, or somebody else puts something there. -/
inductive Event where
  | call (c : Call)
  | change (p : ConfigPlace)

def Call.run : Call → ConfigPlace → Except ConfigError Config × ConfigPlace
  | .create, p => p.load
  | .load env, p => p.loadWith env

def run : List Event → ConfigPlace → List (Except ConfigError Config) × ConfigPlace
  | [], p => ([], p)
  | .call c :: es, p => ((c.run p).1 :: (run es (c.run p).2).1, (run es (c.run p).2).2)
  | .change p :: es, _ => run es p

def left : List Event → ConfigPlace → ConfigPlace
  | [], p => p
  | .call _ :: es, p => left es p
  | .change p :: es, _ => left es p

/-- The configuration that is there: the defaults if nothing is, and what the file says if there is one. -/
def said : ConfigPlace → Except ConfigError Config
  | missing => .ok .initial
  | file text => Config.read text
  | _ => .error .io

def Call.due : Call → ConfigPlace → Except ConfigError Config
  | .create, p => p.said
  | .load env, p => p.said.bind fun c => (c.under env).1.map fun _ => (c.under env).2

/-- The answers of calls that find only what others left. -/
def dues : List Event → ConfigPlace → List (Except ConfigError Config)
  | [], _ => []
  | .call c :: es, p => c.due p :: dues es p
  | .change p :: es, _ => dues es p

def settle (p : ConfigPlace) : ConfigPlace := if p = .missing then .file Config.initial.text else p

variable {p q : ConfigPlace}

theorem read_initial : Config.read Config.initial.text = .ok .initial := by
  decide +kernel

theorem prepare_apply (h : p ≠ .blocked) : prepare p = (.ok (), settle p) := by
  cases p with
  | missing => rfl
  | blocked => contradiction
  | directory => rfl
  | file text => rfl

theorem readFile_apply (p : ConfigPlace) : readFile p = (p.text?.elim (.error .io) .ok, p) := by
  cases p <;> rfl

theorem loading_apply_of_file {text : String} (h : p ≠ .blocked) (hfile : settle p = .file text) :
    loading p = (Config.read text, .file text) := by
  rw [loading, bind_of_ok (prepare_apply h), hfile]
  have hread : readFile (.file text) = (.ok text, .file text) := readFile_apply _
  rw [bind_of_ok hread, ofExcept_apply]

theorem loading_apply (p : ConfigPlace) : loading p = (p.said, settle p) := by
  cases p with
  | missing =>
    have hfile : settle .missing = .file Config.initial.text := if_pos rfl
    rw [loading_apply_of_file (by nofun) hfile, read_initial, hfile]
    rfl
  | blocked => rfl
  | directory => rfl
  | file text =>
    have hfile : settle (.file text) = .file text := if_neg (by nofun)
    rw [loading_apply_of_file (by nofun) hfile, hfile]
    rfl

/-- A call answers by what it finds there, and it leaves that there if it is anything at all. -/
theorem Call.run_eq (c : Call) (p : ConfigPlace) : c.run p = (c.due p, settle p) := by
  cases c with
  | create => exact loading_apply p
  | load env =>
    have hload := loading_apply p
    simp only [run, loadWith, loadingWith, due]
    cases hsaid : p.said with
    | error e =>
      rw [hsaid] at hload
      rw [bind_of_error hload]
      rfl
    | ok c =>
      rw [hsaid] at hload
      rw [bind_of_ok hload]
      exact ofExcept_apply _ _

theorem said_settle (p : ConfigPlace) : (settle p).said = p.said := by
  cases p with
  | missing => exact read_initial
  | blocked => rfl
  | directory => rfl
  | file text => rfl

theorem due_settle (c : Call) (p : ConfigPlace) : c.due (settle p) = c.due p := by
  cases c with
  | create => exact said_settle p
  | load env => rw [Call.due, said_settle, Call.due]

theorem settle_settle (p : ConfigPlace) : settle (settle p) = settle p := by
  cases p <;> rfl

theorem dues_settle (es : List Event) (p : ConfigPlace) : dues es (settle p) = dues es p := by
  induction es with
  | nil => rfl
  | cons e es ih =>
    cases e with
    | call c => rw [dues, dues, due_settle, ih]
    | change q => rfl

theorem run_fst (es : List Event) (p : ConfigPlace) : (run es p).1 = dues es p := by
  induction es generalizing p with
  | nil => rfl
  | cons e es ih =>
    cases e with
    | call c => rw [run, dues, Call.run_eq, ih, dues_settle]
    | change q => exact ih q

/-- A call before all that happens makes no difference to what stands there in the end, but that the defaults
may be there for nothing. -/
theorem run_snd_of_settled (es : List Event) (h : q = p ∨ q = settle p) :
    (run es q).2 = left es p ∨ (run es q).2 = settle (left es p) := by
  induction es generalizing p q with
  | nil => exact h
  | cons e es ih =>
    cases e with
    | call c =>
      rw [run, Call.run_eq]
      apply ih
      right
      cases h with
      | inl h => rw [h]
      | inr h => rw [h, settle_settle]
    | change r => exact ih (.inl rfl)

theorem run_snd (es : List Event) (p : ConfigPlace) :
    (run es p).2 = left es p ∨ left es p = .missing ∧ (run es p).2 = .file Config.initial.text := by
  have h : (run es p).2 = left es p ∨ (run es p).2 = settle (left es p) :=
    run_snd_of_settled es (.inl rfl)
  by_cases hleft : left es p = .missing
  · rw [settle, if_pos hleft] at h
    exact h.imp_right fun h => ⟨hleft, h⟩
  · rw [settle, if_neg hleft, or_self] at h
    exact .inl h

theorem run_calls (cs : List Call) (p : ConfigPlace) :
    (run (cs.map .call) (settle p)).2 = settle p := by
  induction cs with
  | nil => rfl
  | cons c cs ih => rw [List.map_cons, run, Call.run_eq, settle_settle, ih]

/-- A call changes the place only if nothing is there: then the defaults are written, and these are what it
returns for the file as it is. So whatever calls there are, and whatever others put there between them, each
answers by what others left, and this is still there, or the defaults if it was nothing. Without a change by
others, a call for the file as it is returns the same again, or fails in the same way. -/
theorem loading_keeps_what_others_left :
    (∀ (c : Call) (p : ConfigPlace),
      (c.run p).2 = if p = .missing then .file Config.initial.text else p) ∧
    Call.create.run .missing = (.ok .initial, .file Config.initial.text) ∧
    (∀ (es : List Event) (p : ConfigPlace), (run es p).1 = dues es p ∧
      ((run es p).2 = left es p ∨
        left es p = .missing ∧ (run es p).2 = .file Config.initial.text)) ∧
    ∀ (cs : List Call) (p : ConfigPlace),
      (Call.create.run (run (cs.map .call) (Call.create.run p).2).2).1 = (Call.create.run p).1 := by
  refine ⟨?_, ?_, fun es p => ⟨run_fst es p, run_snd es p⟩, ?_⟩
  · intro c p
    rw [Call.run_eq]
    rfl
  · exact Call.run_eq .create .missing
  · intro cs p
    rw [Call.run_eq .create p, run_calls, Call.run_eq, due_settle]

end Muster.ConfigPlace
