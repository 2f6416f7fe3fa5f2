import Muster.Esi.Call
import Muster.Keychain
import Muster.Login.Error
import Muster.Store.Error
import Muster.Sync.Snapshot

/-! Syncing characters: tokens are renewed when they end soon, snapshots fetched and stored, and names
of skills cached. Fetching and storing have a limit of time; caching names never fails a sync. -/

namespace Muster

/-! What can go wrong while a character is synced. -/

inductive SyncError where
  | esi (cause : EsiError)
  | store (cause : StoreError)
  | auth (cause : AuthError)
  | noToken (characterId : Int)
  | timeout (characterId : Int) (after : Duration)
  | multiple (failures : List (Int × SyncError))
deriving Inhabited

namespace SyncError

mutual

def message : SyncError → String
  | esi cause => s!"ESI request failed: {cause.message}"
  | store cause => s!"could not save character data: {cause.message}"
  | auth cause => s!"token refresh failed: {cause.message}"
  | noToken id => s!"no token stored for character {id}"
  | timeout id after => s!"refreshing character {id} timed out after {after.text}"
  | multiple failures =>
    s!"{failures.length} character(s) failed to refresh: {StoreError.joinTexts (failureTexts failures)}"

def failureText : Int × SyncError → String
  | (id, e) => s!"character {id}: {message e}"

def failureTexts : List (Int × SyncError) → List String
  | [] => []
  | f :: fs => failureText f :: failureTexts fs

end

def chain (e : SyncError) : List String :=
  e.message :: match e with
    | esi cause => cause.chain
    | store cause => cause.chain
    | auth cause => cause.chain
    | _ => []

end SyncError

structure Scene (ω : Type) where
  world : ω
  database : Database

/-- What a sync needs of the outer world: ESI, the renewal of tokens, and a place for refresh tokens
to be stowed away and restored from. -/
structure Syncer (ω : Type) where
  ask : Esi.Api ω
  renew : String → Work ω AuthError Token
  stow : TokenRow → ω → TokenRow × ω
  restore : TokenRow → ω → TokenRow × ω
  now : ω → Instant
  limit : Duration

abbrev Sync (ω : Type) := Work (Scene ω) SyncError

namespace Sync

variable {ω ε α : Type}

def outside (f : ε → SyncError) (w : Work ω ε α) : Sync ω α :=
  Work.focus Scene.world (fun w s => { s with world := w }) (w.mapError f)

def inside (a : Database.Action α) : Sync ω α := fun s =>
  match Database.locked a s.database with
  | (.ok v, d) => (.ok v, { s with database := d })
  | (.error e, d) => (.error (.failed (.store e)), { s with database := d })

def change (f : ω → α × ω) : Sync ω α := fun s =>
  let (a, w) := f s.world
  (.ok a, { s with world := w })

end Sync

namespace Syncer

variable {ω : Type}

def keep (s : Syncer ω) (snapshot : Snapshot) (id : Int) (row : TokenRow) : Sync ω CharacterData :=
  fun c => Sync.inside (snapshot.store (s.now c.world) id row) c

def fetchAndStore (s : Syncer ω) (token : Token) (id : Int) : Sync ω CharacterData := do
  let snapshot ← Sync.outside .esi (Snapshot.fetch s.ask token.accessToken id)
  let row ← Sync.change (s.stow (token.forCharacter id))
  s.keep snapshot id row

def resolveNames (s : Syncer ω) (skills : List Int) : Sync ω Nat := do
  let unnamed ← Sync.inside (Database.run (Store.look fun t => t.unnamed skills))
  if unnamed.isEmpty then return 0
  let things ← Sync.outside .esi (s.ask "" (.names unnamed))
  let names := (things.filter fun t => t.category == "inventory_type").map fun t =>
    SkillName.mk t.id t.name
  Sync.inside (Database.run (Store.putSkillNames names))
  return names.length

def resolveIds (s : Syncer ω) (names : List String) : Sync ω Nat := do
  if names.isEmpty then return 0
  let found ← Sync.outside .esi (s.ask "" (.ids names))
  let names := found.types.map fun (id, name) => SkillName.mk id name
  Sync.inside (Database.run (Store.putSkillNames names))
  return names.length

def resolveKnown (s : Syncer ω) : Sync ω Nat := do
  s.resolveNames (← Sync.inside (return (← get).store.knownSkills))

/-- Whatever comes of it, and however long it would take. -/
def cacheNames (s : Syncer ω) (data : CharacterData) : Sync ω Unit := do
  let _ ← (s.resolveNames (data.skills.map (·.skillId))).outcome

def loadToken (s : Syncer ω) (id : Int) : Sync ω Token := do
  match ← Sync.inside (Database.run (Store.look fun t => t.token? id)) with
  | none => Work.fail (.noToken id)
  | some row =>
    let row ← Sync.change (s.restore row)
    let now ← Sync.change fun w => (s.now w, w)
    if row.needsRefresh now then Sync.outside .auth (s.renew row.refreshToken)
    else return row.toToken

def limited (s : Syncer ω) (id : Int) (work : Sync ω CharacterData) : Sync ω CharacterData := do
  let data ← work.within (.timeout id s.limit)
  s.cacheNames data
  return data

def refreshWith (s : Syncer ω) (token : Token) (id : Int) : Sync ω CharacterData :=
  s.limited id (s.fetchAndStore token id)

def refresh (s : Syncer ω) (id : Int) : Sync ω CharacterData :=
  s.limited id (do s.fetchAndStore (← s.loadToken id) id)

/-- What came of each sync, in order. No sync stalls, as each has a limit. -/
def refreshEach (s : Syncer ω) : List Int → Sync ω (List (Int × Except SyncError CharacterData))
  | [] => return []
  | id :: ids => do
    let r : Except SyncError CharacterData := match ← (s.refresh id).outcome with
      | .ok data => .ok data
      | .error (.failed e) => .error e
      | .error .stalled => .error (.timeout id s.limit)
    return (id, r) :: (← s.refreshEach ids)

def failures (rs : List (Int × Except SyncError CharacterData)) : List (Int × SyncError) :=
  rs.filterMap fun
    | (id, .error e) => some (id, e)
    | (_, .ok _) => none

/-- Syncs all stored characters in the order of the roster, and tells of all failures together. -/
def refreshAll (s : Syncer ω) : Sync ω (List CharacterData) := do
  let ids ← Sync.inside (return (← get).store.roster.map (·.character.id))
  let rs ← s.refreshEach ids
  match failures rs with
  | [] => return rs.filterMap fun r => r.2.toOption
  | fs => Work.fail (.multiple fs)

/-! Syncs that stow refresh tokens away in a keychain. -/

variable {σ : Type}

def withKeychain (y : Syncer ω) (v : Vault σ) : Syncer (ω × Keychain σ) where
  ask token call := (y.ask token call).focus Prod.fst fun w p => (w, p.2)
  renew secret := (y.renew secret).focus Prod.fst fun w p => (w, p.2)
  stow row p := ((Keychain.stow v row p.2).1, p.1, (Keychain.stow v row p.2).2)
  restore row p := ((Keychain.restore v row p.2).1, p.1, (Keychain.restore v row p.2).2)
  now p := y.now p.1
  limit := y.limit

end Syncer

end Muster
