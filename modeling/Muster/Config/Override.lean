import Muster.Config

/-! Environment variables that override the configuration. -/

namespace Muster.Config

inductive Key where
  | location
  | level
  | hostport
  | callbackPath
  | callbackScheme
  | clientId
  | authTimeout
  | refreshTimeout
deriving Repr, DecidableEq

namespace Key

def all : List Key :=
  [location, level, hostport, callbackPath, callbackScheme, clientId, authTimeout, refreshTimeout]

def envName : Key → String
  | location => "EVE_ALTS_DATABASE_LOCATION"
  | level => "EVE_ALTS_LOGGING_LEVEL"
  | hostport => "EVE_ALTS_SERVING_HOSTPORT"
  | callbackPath => "EVE_ALTS_SERVING_CALLBACK_PATH"
  | callbackScheme => "EVE_ALTS_SERVING_CALLBACK_SCHEME"
  | clientId => "EVE_ALTS_ESI_CLIENT_ID"
  | authTimeout => "EVE_ALTS_ESI_AUTH_TIMEOUT_SECS"
  | refreshTimeout => "EVE_ALTS_ESI_REFRESH_TIMEOUT_SECS"

def number (k : Key) (value : String) : Except ConfigError Nat :=
  match Text.readUInt64 (Text.trimChars value.toList) with
  | some n => .ok n
  | none => .error (.invalidValue k.envName value)

end Key

def set (c : Config) (k : Key) (value : String) : Except ConfigError Config :=
  match k with
  | .location => .ok { c with location := value }
  | .level => .ok { c with level := value }
  | .hostport => .ok { c with hostport := value }
  | .callbackPath => .ok { c with callbackPath := value }
  | .callbackScheme => .ok { c with callbackScheme := value }
  | .clientId => .ok { c with clientId := value }
  | .authTimeout => (k.number value).map fun n => { c with authTimeout := n }
  | .refreshTimeout => (k.number value).map fun n => { c with refreshTimeout := n }

/-- Sets what the variables say, then completes and checks. A bad number ends it where it stands. -/
def overrideKeys [Monad m] (lookup : String → m (Option String)) :
    List Key → Config → m (Except ConfigError Unit × Config)
  | [], c => pure (c.complete.check, c.complete)
  | k :: ks, c => do
    match ← lookup k.envName with
    | none => overrideKeys lookup ks c
    | some value =>
      match c.set k value with
      | .ok c => overrideKeys lookup ks c
      | .error e => pure (.error e, c)

def override [Monad m] (lookup : String → m (Option String)) (c : Config) :
    m (Except ConfigError Unit × Config) :=
  overrideKeys lookup Key.all c

end Muster.Config
