import Muster.Store.Error
import Muster.Table
import Muster.Tag
import Muster.Text

/-! Skill lists: lines of names and levels become requirements. A lookup gives the id of a name; it
may fail, or keep a record of what it was asked, in the monad it runs in. -/

namespace Muster

/-! One line of a skill list: a name, perhaps followed by a level. -/

inductive LineError where
  | malformed (line : String)
  | invalidLevel (line : String) (level : Int)
  | unknownSkill (name : String)
deriving Repr, DecidableEq

namespace SkillLine

def maxLevel : Nat := 5

/-- A line that does not end with a digit is a name, at level one. Any other needs a blank before
the digit and a character that is no digit before the blank; the digit must be an ASCII one. -/
def readTrimmed (line : List Char) : Except LineError (String × Int) :=
  let malformed := .error (.malformed (String.ofList line))
  match line.reverse with
  | [] => malformed
  | d :: before =>
    if !Text.isDigit d then .ok (String.ofList line, 1)
    else
      match before with
      | s :: l :: rest =>
        if Text.isBlank s && !Text.isDigit l then
          match Text.digitValue 10 d with
          | some k =>
            if k ≤ maxLevel then .ok (String.ofList (Text.trimChars (l :: rest).reverse), (k : Int))
            else .error (.invalidLevel (String.ofList line) k)
          | none => malformed
        else malformed
      | _ => malformed

/-- Blank lines and lines that begin with a number sign say nothing. -/
def read? (raw : List Char) : Option (Except LineError (String × Int)) :=
  match Text.trimChars raw with
  | [] => none
  | '#' :: _ => none
  | line => some (readTrimmed line)

end SkillLine

def LineError.message : LineError → String
  | .malformed line => s!"could not parse line '{line}'"
  | .invalidLevel line level => s!"level {level} is out of range 0-{SkillLine.maxLevel} in '{line}'"
  | .unknownSkill name => s!"unknown skill '{name}'"

inductive SkillListError where
  | invalid (lines : List LineError)
  | lookup (cause : StoreError)

def SkillListError.message : SkillListError → String
  | .invalid lines =>
    let texts := String.intercalate ", " (lines.map LineError.message)
    s!"invalid skill list: {texts}"
  | .lookup cause => s!"skill name lookup failed: {cause.message}"

namespace SkillList

def entries (text : String) : List (Except LineError (String × Int)) :=
  (Text.lines text.toList).filterMap SkillLine.read?

def resolve [Monad m] (lookup : String → m (Option Int)) :
    Except LineError (String × Int) → m (Except LineError SkillRequirement)
  | .error e => pure (.error e)
  | .ok (name, level) => do
    match ← lookup name with
    | some id => return .ok ⟨id, level⟩
    | none => return .error (.unknownSkill name)

def errors (rs : List (Except LineError SkillRequirement)) : List LineError :=
  rs.filterMap fun
    | .error e => some e
    | .ok _ => none

def raise (t : Table Int Int) (r : SkillRequirement) : Table Int Int :=
  t.insert r.skillId ((t.get? r.skillId).elim r.level (max · r.level))

def requirements (rs : List (Except LineError SkillRequirement)) : List SkillRequirement :=
  let good := rs.filterMap Except.toOption
  (good.foldl raise .empty).toList.map fun (id, level) => ⟨id, level⟩

/-- All the bad lines, or the requirements in the order of skill ids. -/
def collect (rs : List (Except LineError SkillRequirement)) :
    Except (List LineError) (List SkillRequirement) :=
  match errors rs with
  | [] => .ok (requirements rs)
  | es => .error es

def read [Monad m] (lookup : String → m (Option Int)) (text : String) :
    m (Except (List LineError) (List SkillRequirement)) := do
  return collect (← (entries text).mapM (resolve lookup))

def names (text : String) : List String :=
  (entries text).filterMap fun
    | .ok (name, _) => some name
    | .error _ => none

def sameName (a b : String) : Bool := a.toLower == b.toLower

/-- The list without names that an earlier one equals up to ASCII case. -/
def distinctNames (ns : List String) : List String :=
  ns.foldl (fun seen n => if seen.any (sameName · n) then seen else seen ++ [n]) []

def unresolved [Monad m] (lookup : String → m (Option Int)) (text : String) : m (List String) := do
  let found ← (names text).mapM fun n => do return (n, ← lookup n)
  return distinctNames (found.filterMap fun (n, id) => if id.isNone then some n else none)

end SkillList

end Muster
