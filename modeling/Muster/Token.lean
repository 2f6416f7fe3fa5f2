import Muster.Json.Value
import Muster.Time

/-! OAuth tokens: what grants access, until when, and what renews it. -/

namespace Muster

structure Token where
  accessToken : String
  refreshToken : String
  tokenType : String
  expiration : Instant
deriving Repr, DecidableEq

structure TokenRow extends Token where
  characterId : Int
deriving Repr, DecidableEq

namespace Token

/-- Tokens this many seconds from their end are renewed before use. -/
def leeway : Int := 60

def needsRefresh (t : Token) (now : Instant) : Bool := (t.expiration.addSeconds (-leeway)).le now

def forCharacter (t : Token) (id : Int) : TokenRow := ⟨t, id⟩

def members (t : Token) : List (String × Json) :=
  [("access_token", .str t.accessToken), ("refresh_token", .str t.refreshToken),
    ("token_type", .str t.tokenType), ("expiration", .str t.expiration.text)]

def toJson (t : Token) : Json := .record t.members

def ofJson? (j : Json) : Option Token := do
  match ← j.required? ["access_token", "refresh_token", "token_type", "expiration"] with
  | [a, r, k, e] =>
    return ⟨← a.asString?, ← r.asString?, ← k.asString?, ← e.asString?.bind Instant.read?⟩
  | _ => none

end Token

def TokenRow.toJson (t : TokenRow) : Json :=
  .record (("character_id", .int t.characterId) :: t.toToken.members)

def TokenRow.ofJson? (j : Json) : Option TokenRow := do
  match ← j.required? ["character_id"] with
  | [i] => return ⟨← Token.ofJson? j, ← i.asInt64?⟩
  | _ => none

end Muster
