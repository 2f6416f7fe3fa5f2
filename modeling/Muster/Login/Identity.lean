import Muster.Login.Claims
import Muster.Login.Error
import Muster.Login.KeySet
import Muster.Text

/-! Access tokens: their form, and whose they are once the signature and the claims are checked. -/

namespace Muster

/-! The subject of an access token, which names a character. -/

def readSubject (subject : String) : Except AuthError Int :=
  match (Text.pieces ':' subject.toList).map String.ofList with
  | ["CHARACTER", "EVE", id] =>
    match Text.readInt64 id.toList with
    | some i => .ok i
    | none => .error (.invalidSubject subject)
  | _ => .error (.invalidSubject subject)

/-! The form of access tokens: a header, a payload and a signature, in base64 and with points between. -/

/-- The parts as they were received. A header may hold points. -/
structure AccessToken where
  header : List Char
  payload : List Char
  signature : List Char
deriving Repr, DecidableEq

structure TokenHeader where
  algorithm : String
  kid : Option String
deriving Repr, DecidableEq

namespace AccessToken

def split? (text : String) : Option AccessToken :=
  match (Text.pieces '.' text.toList).reverse with
  | signature :: payload :: h :: hs =>
    some ⟨['.'].intercalate (h :: hs).reverse, payload, signature⟩
  | _ => none

def signed (t : AccessToken) : Text.Bytes := Text.utf8 (t.header ++ '.' :: t.payload)

def readPart (cs : List Char) : Except TokenFault Json :=
  match Text.Base64Url.decode? cs with
  | none => .error .base64
  | some bs =>
    match (Text.ofUtf8? bs).bind Json.readChars with
    | none => .error .json
    | some j => .ok j

end AccessToken

namespace TokenHeader

def algorithms : List String :=
  ["HS256", "HS384", "HS512", "ES256", "ES384", "RS256", "RS384", "RS512", "PS256", "PS384", "PS512",
    "EdDSA"]

/-- A header is a record of ten fields, of which only the algorithm is required. -/
def ofJson? (j : Json) : Option TokenHeader := do
  match ← j.fields? [("typ", .nullable), ("alg", .required), ("cty", .nullable), ("jku", .nullable),
      ("jwk", .nullable), ("kid", .nullable), ("x5u", .nullable), ("x5c", .nullable),
      ("x5t", .nullable), ("x5t#S256", .nullable)] with
  | [typ, some alg, cty, jku, jwk, kid, address, chain, print, print256] =>
    let texts := [typ, cty, jku, address, print, print256].all
      (SigningKey.isOptional Json.asString?)
    let lists := SigningKey.isOptional (Json.asList? Json.asString?) chain
    let keys := SigningKey.isOptional (SigningKey.ofJson? (Json.maxDepth - 1)) jwk
    if !(texts && lists && keys) then none
    return ⟨← KeyData.choice? algorithms alg, ← (kid.getD .null).asOption? Json.asString?⟩
  | _ => none

def read (t : AccessToken) : Except TokenFault TokenHeader := do
  match ofJson? (← AccessToken.readPart t.header) with
  | some h => return h
  | none => throw .json

end TokenHeader

/-! Whose access token it is: the signature is verified and the claims are checked. -/

structure Identity where
  characterId : Int
  name : String
deriving Repr, DecidableEq

namespace Identity

def keyFor (keys : KeySet) (h : TokenHeader) : Except AuthError SigningKey :=
  match keys.find? h.kid with
  | some k => .ok k
  | none => .error (.unknownKey (h.kid.getD ""))

/-- The claims under a verified signature. The key and the header must agree on RSA with SHA-256. -/
def claims (t : AccessToken) (h : TokenHeader) (key : SigningKey) : Except TokenFault Claims := do
  match ← key.data.toRsa? with
  | none => throw .invalidAlgorithm
  | some rsa =>
    if h.algorithm ≠ "RS256" then throw .invalidAlgorithm
    match Text.Base64Url.decode? t.signature with
    | none => throw .base64
    | some signature =>
      if !Crypto.Rsa.verify rsa t.signed signature then throw .invalidSignature
      Claims.ofJson (← AccessToken.readPart t.payload)

def orFault (r : Except TokenFault α) : Except AuthError α :=
  match r with
  | .ok a => .ok a
  | .error f => .error (.token f)

def validate (keys : KeySet) (client : String) (now : Nat) (text : String) :
    Except AuthError Identity := do
  match AccessToken.split? text with
  | none => throw (.token .invalidToken)
  | some t =>
    let h ← orFault (TokenHeader.read t)
    let key ← keyFor keys h
    let c ← orFault (claims t h key)
    orFault (c.check client now)
    return ⟨← readSubject c.subject, c.name⟩

def toJson (i : Identity) : Json :=
  .record [("character_id", .int i.characterId), ("name", .str i.name)]

end Identity

end Muster
