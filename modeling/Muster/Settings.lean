import Muster.Json.Reader
import Muster.Json.Value
import Muster.Json.Writer
import Muster.Text

/-! Log levels, and the settings: a level and the tags and roles that filter the roster. -/

namespace Muster

inductive Level where
  | off
  | error
  | warn
  | info
  | debug
  | trace
deriving Repr, DecidableEq

namespace Level

def name : Level → String
  | off => "off"
  | error => "error"
  | warn => "warn"
  | info => "info"
  | debug => "debug"
  | trace => "trace"

def ofName? : String → Option Level
  | "off" => some off
  | "error" => some error
  | "warn" => some warn
  | "warning" => some warn
  | "info" => some info
  | "debug" => some debug
  | "trace" => some trace
  | _ => none

/-- A level name with blanks around it and in any letter case. No character outside ASCII is the
capital of a letter in a level name, so lowering ASCII letters is enough. -/
def read? (raw : String) : Option Level := ofName? (Text.trim raw).toLower

/-- An unknown name stands for `info`. -/
def read (raw : String) : Level := (read? raw).getD info

end Level

structure Settings where
  logLevel : String
  tagIds : List Int
  roleIds : List Int
deriving Repr, DecidableEq

namespace Settings

def initial : Settings := ⟨"info", [], []⟩

def toJson (s : Settings) : Json :=
  .record [("log_level", .str s.logLevel), ("selected_tag_ids", .list .int s.tagIds),
    ("selected_role_ids", .list .int s.roleIds)]

/-- A missing field keeps its initial value. -/
def ofJson? (j : Json) : Option Settings := do
  match ← j.fields? [("log_level", .defaulted), ("selected_tag_ids", .defaulted),
      ("selected_role_ids", .defaulted)] with
  | [l, t, r] =>
    let orElse {α : Type} (v : Option Json) (d : α) (f : Json → Option α) : Option α := v.elim (some d) f
    return ⟨← orElse l initial.logLevel Json.asString?,
      ← orElse t initial.tagIds (Json.asList? Json.asInt64?),
      ← orElse r initial.roleIds (Json.asList? Json.asInt64?)⟩
  | _ => none

def write (s : Settings) : String := s.toJson.write

def read? (text : String) : Option Settings := (Json.read? text).bind ofJson?

/-- The canonical name of the level and each id at its first place only. -/
def normalize (s : Settings) : Settings :=
  ⟨(Level.read s.logLevel).name, s.tagIds.eraseDups, s.roleIds.eraseDups⟩

end Settings

end Muster
