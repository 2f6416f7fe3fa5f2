import Muster.Settings
import Muster.Store.Error
import Muster.Table

/-! What the program keeps: settings, characters with all that belongs to them, tags, roles and the
names of skills. Colours, operators and instants are kept as text. -/

namespace Muster

structure AllianceRow where
  name : String
  ticker : String
  picture : String
deriving Repr, DecidableEq

structure CorporationRow where
  allianceId : Option Int
  name : String
  ticker : String
  picture : String
deriving Repr, DecidableEq

structure StoredToken where
  accessToken : String
  refreshToken : String
  tokenType : String
  expiration : String
deriving Repr, DecidableEq

/-- A character owns its levels, by skill, and its token. -/
structure CharacterRow where
  name : String
  picture : String
  corporationId : Int
  updatedAt : String
  skills : Table Int Int
  token : Option StoredToken
deriving DecidableEq

structure TagRow where
  name : String
  color : String
  requirements : Table Int Int
deriving DecidableEq

/-- A role owns its links: the position of each tag, by tag. -/
structure RoleRow where
  name : String
  label : String
  operator : String
  color : String
  links : Table Int Int
deriving DecidableEq

/-- Tags and roles are numbered in the order in which they are made, and the last numbers given are
kept so that none comes again. -/
structure Store where
  settings : Table String String
  alliances : Table Int AllianceRow
  corporations : Table Int CorporationRow
  characters : Table Int CharacterRow
  tags : Table Int TagRow
  roles : Table Int RoleRow
  skillNames : Table Int String
  lastTag : Int
  lastRole : Int
deriving DecidableEq

namespace Store

def empty : Store := ⟨.empty, .empty, .empty, .empty, .empty, .empty, .empty, 0, 0⟩

/-- What changes the store and may be refused on the way; what it did before stays done. -/
abbrev Action := ExceptT StoreError (StateM Store)

/-- Refuses an action that would leave a reference to nothing. -/
def needsRow (found : Bool) : Action Unit :=
  if found then pure () else throw (.engine .foreignKey)

def look (f : Store → Except StoreError α) : Action α := do
  match f (← get) with
  | .ok a => return a
  | .error e => throw e

def among (keys : List Int) (t : Table Int Int) : Table Int Int := t.filter fun k _ => keys.contains k

def apart (keys : List Int) (t : Table Int Int) : Table Int Int := t.filter fun k _ => !keys.contains k

/-- The most variables that a statement may have. -/
def variableLimit : Nat := 32766

def placeholders (count offset : Nat) : String :=
  String.intercalate ", " ((List.range count).map fun i => s!"?{i + 1 + offset}")

/-- The refusal of a statement with a list of values, at the first variable that is one too many. -/
def refusal (head : String) (count offset : Nat) : StoreError :=
  .engine (.tooManyVariables (head ++ placeholders count offset ++ ")")
    (head ++ placeholders (variableLimit - offset) offset ++ ", ").utf8ByteSize)

/-- A statement ends in a list of values, each of them a variable after those in its head. -/
def needsVariables (head : String) (count offset : Nat) : Except StoreError Unit :=
  if count + offset ≤ variableLimit then .ok () else .error (refusal head count offset)

def dropKeys (head : String) (owned : Store → Table Int Int)
    (change : (Table Int Int → Table Int Int) → Action Unit) (keys : List Int) : Action Nat := do
  look fun _ => needsVariables head keys.length 1
  let dropped := (among keys (owned (← get))).size
  change (apart keys)
  return dropped

/-! The settings in the store, as JSON text under one key. -/

def settingsKey : String := "app_settings"

/-- The initial settings when none are stored. -/
def settings? (s : Store) : Except StoreError Settings :=
  match s.settings.get? settingsKey with
  | none => .ok .initial
  | some text =>
    match Settings.read? text with
    | some v => .ok v
    | none => .error (.encoding "not the settings")

def putSettingText (key value : String) : Action Unit :=
  modify fun s => { s with settings := s.settings.insert key value }

def addSettingText (key value : String) : Action Unit := do
  if (← get).settings.contains key then throw (.engine .duplicateSetting)
  putSettingText key value

def putSettings (v : Settings) : Action Unit := putSettingText settingsKey v.write

end Store

end Muster
