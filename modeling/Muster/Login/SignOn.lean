import Muster.Config
import Muster.Login.Callbacks
import Muster.Login.Grant
import Muster.Login.KeyCache

/-! The sign-on service: logins through the browser, renewed tokens, and whose token it is. -/

namespace Muster

structure SignOn where
  client : String
  redirect : String
  authorizeUrl : String
  tokenUrl : String
  keysUrl : String
deriving Repr, DecidableEq

/-- What logins change: the logins that wait, the published keys, and the outer world. -/
structure Portal (ω : Type) where
  callbacks : Callbacks
  keys : Option KeySet
  world : ω

/-- How logins reach the outer world. What opening the browser does includes all that happens until the
login ends. -/
structure Gateway (ω : Type) where
  send : Http.Transport ω
  openBrowser : String → Portal ω → Except String Unit × Portal ω
  now : ω → Instant

namespace SignOn

def scopes : List String :=
  ["publicData", "esi-skills.read_skills.v1", "esi-skills.read_skillqueue.v1",
    "esi-clones.read_clones.v1", "esi-assets.read_assets.v1"]

def ofConfig (c : Config) : SignOn where
  client := c.clientId
  redirect := c.callbackUrl
  authorizeUrl := "https://login.eveonline.com/v2/oauth/authorize/"
  tokenUrl := "https://login.eveonline.com/v2/oauth/token"
  keysUrl := "https://login.eveonline.com/oauth/jwks"

variable {ω : Type}

def onWorld (w : Work ω ε α) : Work (Portal ω) ε α :=
  w.focus Portal.world fun v p => { p with world := v }

def onCallbacks (f : Callbacks → α × Callbacks) : Work (Portal ω) AuthError α := fun p =>
  let (a, c) := f p.callbacks
  (.ok a, { p with callbacks := c })

def giveUp (n : Nat) (e : AuthError) : Work (Portal ω) AuthError α := do
  onCallbacks fun c => ((), c.drop n)
  Work.fail e

/-- The code of a login: the browser is opened, and the callback waited for. However it ends, the login
is no longer registered. -/
def awaitCode (s : SignOn) (g : Gateway ω) (key : Pkce) (state : String) (limit : Duration) :
    Work (Portal ω) AuthError String := do
  let n ← onCallbacks (·.expect state)
  match Authorize.url ⟨s.client, s.redirect, scopes, key.challenge, state⟩ s.authorizeUrl with
  | .error e => giveUp n e
  | .ok url =>
    match ← (fun p => let (r, p) := g.openBrowser url p; (.ok r, p)) with
    | .error reason => giveUp n (.browser reason)
    | .ok () => Work.ofExcept (← onCallbacks (·.wait n limit))

def authenticate (s : SignOn) (g : Gateway ω) (secret : Text.Bytes) (state : String)
    (limit : Duration) : Work (Portal ω) AuthError Token := do
  let key := Pkce.ofBytes secret
  let code ← s.awaitCode g key state limit
  onWorld ((Grant.code code key.verifier).exchange g.send g.now s.tokenUrl s.client)

def renew (s : SignOn) (g : Gateway ω) (refreshToken : String) : Work ω AuthError Token :=
  (Grant.refresh refreshToken).exchange g.send g.now s.tokenUrl s.client

def validate (s : SignOn) (g : Gateway ω) (token : String) : Work (Portal ω) AuthError Identity :=
  (KeyCache.validate g.send s.keysUrl s.client (fun w => (g.now w).seconds.toNat) token).focus
    (fun p => ⟨p.keys, p.world⟩) fun c p => { p with keys := c.keys, world := c.world }

end SignOn

end Muster
