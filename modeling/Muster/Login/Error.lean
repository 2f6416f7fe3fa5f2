import Muster.Http
import Muster.Time

/-! What can go wrong while a character logs in or a token is checked. -/

namespace Muster

inductive TokenFault where
  | invalidToken
  | invalidSignature
  | invalidAlgorithm
  | missingClaim (name : String)
  | expired
  | invalidIssuer
  | invalidAudience
  | base64
  | json
deriving Repr, DecidableEq

def TokenFault.name : TokenFault → String
  | invalidToken => "InvalidToken"
  | invalidSignature => "InvalidSignature"
  | invalidAlgorithm => "InvalidAlgorithm"
  | missingClaim name => s!"MissingRequiredClaim {name}"
  | expired => "ExpiredSignature"
  | invalidIssuer => "InvalidIssuer"
  | invalidAudience => "InvalidAudience"
  | base64 => "Base64"
  | json => "Json"

inductive AuthError where
  | http (detail : String)
  | sso (code : Http.Status) (body : String)
  | timeout (after : Duration)
  | cancelled
  | browser (reason : String)
  | url (reason : String)
  | token (fault : TokenFault)
  | unknownKey (kid : String)
  | invalidSubject (subject : String)
  | server (detail : String)
  | overflow (seconds : Int)
deriving Repr, DecidableEq

namespace AuthError

def message : AuthError → String
  | http detail => s!"HTTP request failed: {detail}"
  | sso code body => s!"SSO returned {code.text}: {body}"
  | timeout after => s!"login timed out after {after.text}"
  | cancelled => "login was cancelled"
  | browser reason => s!"could not open browser: {reason}"
  | url reason => s!"invalid authorize URL: {reason}"
  | token fault => s!"invalid access token: {fault.name}"
  | unknownKey kid => s!"no signing key '{kid}' in SSO key set"
  | invalidSubject subject => s!"unexpected token subject '{subject}'"
  | server detail => s!"callback server failed: {detail}"
  | overflow seconds => s!"no instant is {seconds} seconds from now"

def chain (e : AuthError) : List String :=
  e.message :: match e with
    | http detail => [detail]
    | token fault => [fault.name]
    | server detail => [detail]
    | _ => []

end AuthError

end Muster
