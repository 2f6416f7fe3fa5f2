import Muster.Json.Value
import Muster.Settings
import Muster.Text
import Muster.Time
import Muster.Toml.Reader
import Muster.Toml.Value

/-! The configuration: what a TOML text says, completed with defaults and checked. -/

namespace Muster

/-- Timeouts are in seconds. -/
structure Config where
  location : String
  level : String
  hostport : String
  callbackPath : String
  callbackScheme : String
  clientId : String
  authTimeout : Nat
  refreshTimeout : Nat
deriving Repr, DecidableEq

inductive ConfigError where
  | io
  | parse
  | invalidValue (key value : String)
deriving Repr, DecidableEq

def ConfigError.message : ConfigError → String
  | .io => "could not access config file"
  | .parse => "invalid config TOML"
  | .invalidValue key value => s!"invalid value '{value}' for {key}"

namespace Config

def initial : Config where
  location := ""
  level := "info"
  hostport := "localhost:8619"
  callbackPath := "/callback"
  callbackScheme := "http"
  clientId := "5a58af6b66a34b45a8b827e34b81527f"
  authTimeout := 30
  refreshTimeout := 30

def filled (default text : String) : String := if Text.isBlankText text then default else text

def positive (default n : Nat) : Nat := if n = 0 then default else n

def rooted (path : String) : String := if path.front? = some '/' then path else "/" ++ path

def complete (c : Config) : Config where
  location := c.location
  level := filled initial.level c.level
  hostport := filled initial.hostport c.hostport
  callbackPath := rooted (filled initial.callbackPath c.callbackPath)
  callbackScheme := filled initial.callbackScheme c.callbackScheme
  clientId := filled initial.clientId c.clientId
  authTimeout := positive initial.authTimeout c.authTimeout
  refreshTimeout := positive initial.refreshTimeout c.refreshTimeout

/-- The level and the scheme must be known; the level is looked at first. -/
def check (c : Config) : Except ConfigError Unit :=
  if (Level.read? c.level).isNone then .error (.invalidValue "logging.level" c.level)
  else if c.callbackScheme = "http" ∨ c.callbackScheme = "https" then .ok ()
  else .error (.invalidValue "serving.callback_scheme" c.callbackScheme)

def ofToml? (t : Toml) : Option Config := do
  let fieldsOf (t : Option Toml) (names : List String) :=
    (t.getD (.table .implied [])).fields? names
  match ← t.fields? ["database", "logging", "serving", "esi"] with
  | [database, logging, serving, esi] =>
    match ← fieldsOf database ["location"], ← fieldsOf logging ["level"],
        ← fieldsOf serving ["hostport", "callback_path", "callback_scheme"],
        ← fieldsOf esi ["client_id", "auth_timeout_secs", "refresh_timeout_secs"] with
    | [location], [level], [hostport, path, scheme], [client, auth, refresh] =>
      return {
        location := ← Toml.fieldOr initial.location Toml.asText? location
        level := ← Toml.fieldOr initial.level Toml.asText? level
        hostport := ← Toml.fieldOr initial.hostport Toml.asText? hostport
        callbackPath := ← Toml.fieldOr initial.callbackPath Toml.asText? path
        callbackScheme := ← Toml.fieldOr initial.callbackScheme Toml.asText? scheme
        clientId := ← Toml.fieldOr initial.clientId Toml.asText? client
        authTimeout := ← Toml.fieldOr initial.authTimeout Toml.asNat? auth
        refreshTimeout := ← Toml.fieldOr initial.refreshTimeout Toml.asNat? refresh }
    | _, _, _, _ => none
  | _ => none

def read (text : String) : Except ConfigError Config :=
  match (Toml.read? text).bind fun es => ofToml? (.table .header es) with
  | none => .error .parse
  | some c => c.complete.check.map fun _ => c.complete

def callbackUrl (c : Config) : String := s!"{c.callbackScheme}://{c.hostport}{c.callbackPath}"

def join (directory name : String) : String :=
  if directory.isEmpty || directory.endsWith "/" then directory ++ name else s!"{directory}/{name}"

/-- The chosen location without blanks around it, or a file in the default directory. -/
def databasePath (c : Config) (default : String) : String :=
  if Text.isBlankText c.location then join default "eve-alts.db" else Text.trim c.location

def authLimit (c : Config) : Duration := .ofSeconds c.authTimeout

def refreshLimit (c : Config) : Duration := .ofSeconds c.refreshTimeout

def toJson (c : Config) : Json :=
  .record [("database", .record [("location", .str c.location)]),
    ("logging", .record [("level", .str c.level)]),
    ("serving", .record [("hostport", .str c.hostport), ("callback_path", .str c.callbackPath),
      ("callback_scheme", .str c.callbackScheme)]),
    ("esi", .record [("client_id", .str c.clientId), ("auth_timeout_secs", .int c.authTimeout),
      ("refresh_timeout_secs", .int c.refreshTimeout)])]

/-- Any part may be missing or `null`, and has its default then. -/
def ofJson? (j : Json) : Option Config := do
  let orElse {α : Type} (d : α) (f : Json → Option α) (j : Option Json) : Option α :=
    ((j.getD .null).asOption? f).map (·.getD d)
  let fieldsOf (j : Option Json) (names : List String) := orElse (names.map fun _ => none)
    (Json.fields? (names.map fun n => (n, .nullable))) j
  let textOr (d : String) := orElse d Json.asString?
  let natOr (d : Nat) := orElse d (Json.asBelow? 0x10000000000000000)
  match ← fieldsOf (some j) ["database", "logging", "serving", "esi"] with
  | [database, logging, serving, esi] =>
    match ← fieldsOf database ["location"], ← fieldsOf logging ["level"],
        ← fieldsOf serving ["hostport", "callback_path", "callback_scheme"],
        ← fieldsOf esi ["client_id", "auth_timeout_secs", "refresh_timeout_secs"] with
    | [location], [level], [hostport, path, scheme], [client, auth, refresh] =>
      return {
        location := ← textOr initial.location location
        level := ← textOr initial.level level
        hostport := ← textOr initial.hostport hostport
        callbackPath := ← textOr initial.callbackPath path
        callbackScheme := ← textOr initial.callbackScheme scheme
        clientId := ← textOr initial.clientId client
        authTimeout := ← natOr initial.authTimeout auth
        refreshTimeout := ← natOr initial.refreshTimeout refresh }
    | _, _, _, _ => none
  | _ => none

/-- A TOML text that says the same, for texts that need no escapes. -/
def text (c : Config) : String :=
  let line (key value : String) := s!"{key} = {value}\n"
  let quoted (key value : String) := line key s!"\"{value}\""
  "[database]\n" ++ quoted "location" c.location ++ "\n[logging]\n" ++ quoted "level" c.level ++
    "\n[serving]\n" ++ quoted "hostport" c.hostport ++ quoted "callback_path" c.callbackPath ++
    quoted "callback_scheme" c.callbackScheme ++ "\n[esi]\n" ++ quoted "client_id" c.clientId ++
    line "auth_timeout_secs" (toString c.authTimeout) ++
    line "refresh_timeout_secs" (toString c.refreshTimeout)

end Config

end Muster
