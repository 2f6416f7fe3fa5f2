import Muster.Sync.Syncer

/-! Work in single steps, so that the steps of several works can come in any order. -/

namespace Muster

/-- A step acts on the whole state at once; what comes after it depends on the state it found. -/
inductive Strand (σ α : Type) where
  | done (a : α)
  | step (act : σ → σ) (next : σ → Strand σ α)

namespace Strand

variable {σ α β : Type}

def bind : Strand σ α → (α → Strand σ β) → Strand σ β
  | done a, f => f a
  | step act next, f => step act fun s => (next s).bind f

instance : Monad (Strand σ) where
  pure := done
  bind := bind

def run : Strand σ α → StateM σ α
  | done a => fun s => (a, s)
  | step act next => fun s => (next s).run (act s)

inductive Advance : List (Strand σ α) → σ → List (Strand σ α) → σ → Prop
  | here {act : σ → σ} {next : σ → Strand σ α} {ts : List (Strand σ α)} {s : σ} :
    Advance (step act next :: ts) s (next s :: ts) (act s)
  | there {t : Strand σ α} {ts us : List (Strand σ α)} {s u : σ} :
    Advance ts s us u → Advance (t :: ts) s (t :: us) u

/-- The strands make their steps in some order, one step at a time, until all of them are done. -/
inductive Interleaved : List (Strand σ α) → σ → List α → σ → Prop
  | done (as : List α) (s : σ) : Interleaved (as.map .done) s as s
  | step {ts us : List (Strand σ α)} {s u v : σ} {as : List α} :
    Advance ts s us u → Interleaved us u as v → Interleaved ts s as v

end Strand

/-- A sync in steps: a call, a look at the database or a change of it is one step. -/
abbrev Stepwise (ω : Type) := ExceptT (Halt SyncError) (Strand (Scene ω))

namespace Stepwise

variable {ω α : Type}

def atom (w : Sync ω α) : Stepwise ω α := ExceptT.mk (.step (fun c => (w c).2) fun c => .done (w c).1)

def outcome (w : Stepwise ω α) : Stepwise ω (Except (Halt SyncError) α) :=
  ExceptT.mk (w.run.bind fun r => .done (.ok r))

def givenUp (late : SyncError) : Except (Halt SyncError) α → Except (Halt SyncError) α
  | .error .stalled => .error (.failed late)
  | r => r

def within (late : SyncError) (w : Stepwise ω α) : Stepwise ω α :=
  ExceptT.mk (w.run.bind fun r => .done (givenUp late r))

end Stepwise

namespace Syncer

variable {ω : Type} (y : Syncer ω)

def askStep (token : String) (c : Esi.Call) : Stepwise ω c.Answer :=
  .atom (.outside .esi (y.ask token c))

def allianceSteps (token : String) (c : Esi.CorporationData) :
    Stepwise ω (Option (Int × Esi.AllianceData × Esi.AllianceIcons)) := do
  match c.allianceId.filter (· != 0) with
  | none => return none
  | some id =>
    let data ← y.askStep token (.alliance id)
    let icons ← y.askStep token (.allianceIcons id)
    return some (id, data, icons)

def snapshotSteps (token : String) (id : Int) : Stepwise ω Snapshot := do
  let person ← y.askStep token (.character id)
  let portrait ← y.askStep token (.portrait id)
  let corporation ← y.askStep token (.corporation person.corporationId)
  let icons ← y.askStep token (.corporationIcons person.corporationId)
  let skills ← y.askStep token (.skills id)
  let alliance ← y.allianceSteps token corporation
  return ⟨person, portrait, corporation, icons, alliance, skills⟩

def storeSteps (token : Token) (id : Int) : Stepwise ω CharacterData := do
  let snapshot ← y.snapshotSteps token.accessToken id
  let row ← .atom (Sync.change (y.stow (token.forCharacter id)))
  .atom (y.keep snapshot id row)

def tokenSteps (id : Int) : Stepwise ω Token := do
  match ← .atom (Sync.inside (Database.run (Store.look fun t => t.token? id))) with
  | none => throw (.failed (.noToken id))
  | some row =>
    let row ← .atom (Sync.change (y.restore row))
    let now ← .atom (Sync.change fun w => (y.now w, w))
    if row.needsRefresh now then .atom (Sync.outside .auth (y.renew row.refreshToken))
    else return row.toToken

def nameSteps (skills : List Int) : Stepwise ω Nat := do
  let unnamed ← .atom (Sync.inside (Database.run (Store.look fun t => t.unnamed skills)))
  if unnamed.isEmpty then return 0
  let things ← y.askStep "" (.names unnamed)
  let names := (things.filter fun t => t.category == "inventory_type").map fun t =>
    SkillName.mk t.id t.name
  .atom (Sync.inside (Database.run (Store.putSkillNames names)))
  return names.length

def refreshSteps (id : Int) : Stepwise ω CharacterData := do
  let data ← Stepwise.within (.timeout id y.limit) (do y.storeSteps (← y.tokenSteps id) id)
  let _ ← (y.nameSteps (data.skills.map (·.skillId))).outcome
  return data

def rosterIds : Sync ω (List Int) := Sync.inside (return (← get).store.roster.map (·.character.id))

/-- What a sync told in the end, by its character. No sync stalls, as each has a limit. -/
def reports (ids : List Int) (rs : List (Except (Halt SyncError) CharacterData)) :
    List (Int × Except SyncError CharacterData) :=
  ids.zipWith (fun id r => (id, match r with
    | .ok data => .ok data
    | .error (.failed e) => .error e
    | .error .stalled => .error (.timeout id y.limit))) rs

def gather (rs : List (Int × Except SyncError CharacterData)) :
    Except (Halt SyncError) (List CharacterData) :=
  match failures rs with
  | [] => .ok (rs.filterMap fun r => r.2.toOption)
  | fs => .error (.failed (.multiple fs))

/-- All stored characters are synced side by side, their steps in any order. -/
inductive RefreshesAll (c : Scene ω) : Except (Halt SyncError) (List CharacterData) → Scene ω → Prop
  | unread {h : Halt SyncError} {c' : Scene ω} : rosterIds c = (.error h, c') →
    RefreshesAll c (.error h) c'
  | joined {ids : List Int} {rs : List (Except (Halt SyncError) CharacterData)} {v c' : Scene ω} :
    rosterIds c = (.ok ids, v) →
    Strand.Interleaved (ids.map fun id => (y.refreshSteps id).run) v rs c' →
    RefreshesAll c (gather (y.reports ids rs)) c'

end Syncer

end Muster
