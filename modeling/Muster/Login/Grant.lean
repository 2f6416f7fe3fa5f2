import Muster.Crypto
import Muster.Http
import Muster.Json.Reader
import Muster.Login.Error
import Muster.Text.Bytes
import Muster.Text.Form
import Muster.Token
import Muster.Url

/-! What the authorization server is asked: the address at which a user grants access, then tokens. -/

namespace Muster

/-! Proof keys: the secret of a login and the challenge that announces it. -/

structure Pkce where
  verifier : String
  challenge : String
deriving Repr, DecidableEq

namespace Pkce

def challengeFor (verifier : String) : String :=
  String.ofList (Text.Base64Url.encode (Crypto.Sha256.hash (Text.bytesOf verifier)))

def ofBytes (bytes : Text.Bytes) : Pkce :=
  let verifier := String.ofList (Text.Base64Url.encode bytes)
  ⟨verifier, challengeFor verifier⟩

end Pkce

structure Authorize where
  client : String
  redirect : String
  scopes : List String
  challenge : String
  state : String
deriving Repr, DecidableEq

namespace Authorize

def pairs (a : Authorize) : List (String × String) :=
  [("response_type", "code"), ("redirect_uri", a.redirect), ("client_id", a.client),
    ("scope", String.intercalate " " a.scopes), ("code_challenge", a.challenge),
    ("code_challenge_method", "S256"), ("state", a.state)]

def url (a : Authorize) (base : String) : Except AuthError String :=
  match Url.read base with
  | .ok u => .ok (u.addPairs a.pairs).text
  | .error e => .error (.url e.message)

end Authorize

inductive Grant where
  | code (code verifier : String)
  | refresh (token : String)
deriving Repr, DecidableEq

structure TokenAnswer where
  accessToken : String
  expiresIn : Int
  tokenType : String
  refreshToken : String
deriving Repr, DecidableEq

namespace Grant

def form (client : String) : Grant → List (String × String)
  | code c v => [("grant_type", "authorization_code"), ("code", c), ("client_id", client),
      ("code_verifier", v)]
  | refresh t => [("grant_type", "refresh_token"), ("refresh_token", t), ("client_id", client)]

def request (url client : String) (g : Grant) : Http.Request :=
  ⟨.post, url, Http.userAgent, none, some "application/json", some "application/x-www-form-urlencoded",
    String.ofList (Text.Form.encode (g.form client))⟩

/-- The refresh token of an answer, or the one that was used when the answer has none. -/
def carry (g : Grant) (t : Token) : Token :=
  match g with
  | refresh old => if t.refreshToken.isEmpty then { t with refreshToken := old } else t
  | code .. => t

end Grant

namespace TokenAnswer

def ofJson? (j : Json) : Option TokenAnswer := do
  match ← j.fields? [("access_token", .required), ("expires_in", .required),
      ("token_type", .defaulted), ("refresh_token", .defaulted)] with
  | [some a, some e, t, r] =>
    return ⟨← a.asString?, ← e.asInt64?, ← t.elim (some "Bearer") Json.asString?,
      ← r.elim (some "") Json.asString?⟩
  | _ => none

/-- Spans of more milliseconds than fit in 64 bits are refused, and so are years that no calendar of
the program reaches. -/
def expiration (a : TokenAnswer) (now : Instant) : Except AuthError Instant :=
  let t := now.addSeconds a.expiresIn
  if a.expiresIn.natAbs ≤ 0x7FFFFFFFFFFFFFFF / 1000 ∧ -262143 ≤ t.year ∧ t.year ≤ 262142 then .ok t
  else .error (.overflow a.expiresIn)

def toToken (a : TokenAnswer) (now : Instant) : Except AuthError Token :=
  (a.expiration now).map fun e => ⟨a.accessToken, a.refreshToken, a.tokenType, e⟩

/-- Any success brings a token. -/
def read (r : Http.Response) : Except AuthError TokenAnswer :=
  if r.status.isSuccess then
    match (Json.read? r.body).bind ofJson? with
    | some a => .ok a
    | none => .error (.http "unexpected content")
  else .error (.sso r.status r.body)

end TokenAnswer

def Grant.exchange (send : Http.Transport ω) (now : ω → Instant) (url client : String) (g : Grant) :
    Work ω AuthError Token := do
  let r ← (send (g.request url client)).mapError .http
  let a ← Work.ofExcept (TokenAnswer.read r)
  let t ← Work.ofExcept (a.toToken (now (← get)))
  return g.carry t

end Muster
