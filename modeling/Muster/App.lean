import Muster.Keychain
import Muster.Login.Callbacks
import Muster.Login.SignOn
import Muster.Sync.Syncer

/-! The program at work: its services, what a session keeps, and how commands fail. -/

namespace Muster

/-! Errors as the user sees them, with what only the log shows. -/

/-- A message for the user, perhaps another one for the log, and the texts of the causes, from the
nearest to the deepest. -/
structure PublicError where
  message : String
  internal : Option String
  causes : List String
deriving Repr, DecidableEq, Inhabited

namespace PublicError

def new (message : String) : PublicError := ⟨message, none, []⟩

def withInternal (e : PublicError) (text : String) : PublicError := { e with internal := some text }

def withHidden (e : PublicError) (chain : List String) : PublicError := { e with causes := chain }

def withPublic (e cause : PublicError) : PublicError :=
  { e with message := s!"{e.message}: {cause.message}", causes := cause.message :: cause.causes }

def internalError (e : PublicError) : String :=
  e.causes.foldl (fun out text => s!"{out}: {text}") (e.internal.getD e.message)

def chain (e : PublicError) : List String := e.message :: e.causes

def report (e : PublicError) : String × List String :=
  (e.message, [s!"[application error] {e.internalError}"])

end PublicError

structure Services (ω : Type) where
  gateway : Gateway ω
  ask : Esi.Api ω
  stow : TokenRow → ω → TokenRow × ω
  restore : TokenRow → ω → TokenRow × ω
  forget : Int → ω → ω
  color : ω → Color × ω

structure App (ω : Type) where
  config : Config
  address : Address
  signOn : SignOn
  services : Services ω

structure Session (ω : Type) where
  portal : Portal ω
  database : Database
  level : Level

abbrev Command (ω : Type) := Work (Session ω) PublicError

namespace App

variable {ω : Type}

/-- Starts the program, unless it cannot listen where the configuration says. -/
def start (listen : String → Except String Address) (s : Services ω) (c : Config) :
    Except PublicError (App ω) :=
  match listen c.hostport with
  | .ok a => .ok ⟨c, a, .ofConfig c, s⟩
  | .error detail =>
    .error ((PublicError.new s!"Could not listen for EVE Online logins on {c.hostport}").withHidden
      ["callback server failed", detail])

def syncer (a : App ω) : Syncer ω where
  ask := a.services.ask
  renew := a.signOn.renew a.services.gateway
  stow := a.services.stow
  restore := a.services.restore
  now := a.services.gateway.now
  limit := a.config.refreshLimit

end App

namespace Command

variable {ω ε α : Type}

def refuse (message : String) : Command ω α := Work.fail (.new message)

/-- An action on the locked database; why it fails is hidden behind a message. -/
def inside (message : String) (a : Database.Action α) : Command ω α := fun s =>
  match Database.locked a s.database with
  | (.ok v, d) => (.ok v, { s with database := d })
  | (.error e, d) => (.error (.failed ((PublicError.new message).withHidden e.chain)),
    { s with database := d })

def look (message : String) (f : Store → Except StoreError α) : Command ω α :=
  inside message (Database.run (Store.look f))

def sync (tell : SyncError → PublicError) (w : Sync ω α) : Command ω α :=
  (w.mapError fun e => (tell e).withHidden e.chain).focus
    (fun s => ⟨s.portal.world, s.database⟩)
    fun c s => { s with portal := { s.portal with world := c.world }, database := c.database }

def login (message : String) (w : Work (Portal ω) AuthError α) : Command ω α :=
  (w.mapError fun e => (PublicError.new message).withHidden e.chain).focus Session.portal
    fun p s => { s with portal := p }

def change (f : ω → α × ω) : Command ω α := fun s =>
  let (a, w) := f s.portal.world
  (.ok a, { s with portal := { s.portal with world := w } })

def found (message : String) : Option α → Command ω α
  | some a => pure a
  | none => refuse message

/-- A text without the blanks around it, of which something must be left. -/
def required (field text : String) : Command ω String :=
  if Text.isBlankText text then refuse s!"{field} cannot be empty" else pure (Text.trim text)

end Command

/-! Programs that keep refresh tokens in a keychain. -/

variable {ω σ : Type}

def Gateway.withKeychain (g : Gateway ω) : Gateway (ω × Keychain σ) where
  send r := (g.send r).focus Prod.fst fun w p => (w, p.2)
  openBrowser url p :=
    let (r, q) := g.openBrowser url { p with world := p.world.1 }
    (r, { q with world := (q.world, p.world.2) })
  now p := g.now p.1

/-- The same program with its refresh tokens in a keychain, where the secret of a character that is
deleted is forgotten. -/
def App.withKeychain (a : App ω) (v : Vault σ) : App (ω × Keychain σ) where
  config := a.config
  address := a.address
  signOn := a.signOn
  services :=
    { gateway := a.services.gateway.withKeychain
      ask := (a.syncer.withKeychain v).ask
      stow := (a.syncer.withKeychain v).stow
      restore := (a.syncer.withKeychain v).restore
      forget := fun id p => (p.1, Keychain.forget v id p.2)
      color := fun p => ((a.services.color p.1).1, (a.services.color p.1).2, p.2) }

end Muster
