import Muster.Database
import Muster.Esi.Call

/-! All that ESI says of a character at one time, fetched call by call and stored as a whole. -/

namespace Muster

structure Snapshot where
  person : Esi.PublicData
  portrait : Esi.Portrait
  corporation : Esi.CorporationData
  corporationIcons : Esi.CorporationIcons
  alliance : Option (Int × Esi.AllianceData × Esi.AllianceIcons)
  skills : Esi.SkillSheet
deriving Repr, DecidableEq

namespace Snapshot

/-- The alliance of a corporation; the id zero stands for none. -/
def fetchAlliance (ask : Esi.Api ω) (token : String) (c : Esi.CorporationData) :
    Work ω EsiError (Option (Int × Esi.AllianceData × Esi.AllianceIcons)) := do
  match c.allianceId.filter (· != 0) with
  | none => return none
  | some id =>
    let data ← ask token (.alliance id)
    let icons ← ask token (.allianceIcons id)
    return some (id, data, icons)

def fetch (ask : Esi.Api ω) (token : String) (id : Int) : Work ω EsiError Snapshot := do
  let person ← ask token (.character id)
  let portrait ← ask token (.portrait id)
  let corporation ← ask token (.corporation person.corporationId)
  let icons ← ask token (.corporationIcons person.corporationId)
  let skills ← ask token (.skills id)
  let alliance ← fetchAlliance ask token corporation
  return ⟨person, portrait, corporation, icons, alliance, skills⟩

def allianceRow (s : Snapshot) : Option Alliance :=
  s.alliance.map fun (id, data, icons) => ⟨id, data.name, data.ticker, icons.px64⟩

def corporationRow (s : Snapshot) : Corporation :=
  ⟨s.person.corporationId, s.alliance.map (·.1), s.corporation.name, s.corporation.ticker,
    s.corporationIcons.px64⟩

def characterRow (s : Snapshot) (id : Int) : Character :=
  ⟨id, s.person.name, s.portrait.px128, s.person.corporationId⟩

def skillRows (s : Snapshot) (id : Int) : List CharacterSkill :=
  s.skills.skills.map fun k => ⟨id, k.id, k.trained⟩

/-- Writes the snapshot and the token of a character. Skills that are not reported are dropped. -/
def put (s : Snapshot) (now : Instant) (id : Int) (token : TokenRow) : Store.Action CharacterData := do
  s.allianceRow.forM Store.putAlliance
  Store.putCorporation s.corporationRow
  Store.putCharacter now (s.characterRow id)
  Store.putToken token
  let stale := ((← get).skillTable id).keys.filter fun k => !s.skills.skills.any fun r => r.id == k
  (s.skillRows id).forM Store.putSkill
  let _ ← Store.dropSkills id stale
  match (← get).character? id with
  | some data => return data
  | none => throw (.engine .noRows)

def store (s : Snapshot) (now : Instant) (id : Int) (token : TokenRow) :
    Database.Action CharacterData :=
  Database.atomically (s.put now id token)

def toJson (s : Snapshot) : Json :=
  .record [("public", s.person.toJson), ("portrait", s.portrait.toJson),
    ("corporation", s.corporation.toJson), ("corporation_icons", s.corporationIcons.toJson),
    ("alliance", .ofOption (fun (id, data, icons) => .array [.int id, data.toJson, icons.toJson])
      s.alliance),
    ("skills", s.skills.toJson)]

end Snapshot

end Muster
