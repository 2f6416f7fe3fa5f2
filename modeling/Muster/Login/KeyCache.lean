import Muster.Http
import Muster.Login.Identity

/-! The published keys, fetched when they are first needed and once more for a token with a key that is
not among them. -/

namespace Muster

structure KeyCache (ω : Type) where
  keys : Option KeySet
  world : ω

namespace KeyCache

variable {ω : Type}

def readKeys (r : Http.Response) : Except AuthError KeySet :=
  if r.status.isSuccess then
    match KeySet.read? r.body with
    | some ks => .ok ks
    | none => .error (.http "unexpected content")
  else .error (.sso r.status r.body)

def fetch (send : Http.Transport ω) (url : String) : Work (KeyCache ω) AuthError KeySet := do
  let r ← Work.focus KeyCache.world (fun w c => { c with world := w })
    ((send ⟨.get, url, Http.userAgent, none, none, none, ""⟩).mapError .http)
  let ks ← Work.ofExcept (readKeys r)
  modify fun c => { c with keys := some ks }
  return ks

def current (send : Http.Transport ω) (url : String) : Work (KeyCache ω) AuthError KeySet := do
  match (← get).keys with
  | some ks => return ks
  | none => fetch send url

/-- Validates a token under the keys at hand, and under fresh ones when its key is not among them. -/
def validate (send : Http.Transport ω) (url client : String) (now : ω → Nat) (token : String) :
    Work (KeyCache ω) AuthError Identity := do
  let ks ← current send url
  match Identity.validate ks client (now (← get).world) token with
  | .error (.unknownKey _) =>
    let ks ← fetch send url
    Work.ofExcept (Identity.validate ks client (now (← get).world) token)
  | r => Work.ofExcept r

end KeyCache

end Muster
