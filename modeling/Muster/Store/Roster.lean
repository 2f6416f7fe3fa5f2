import Muster.Character
import Muster.Store
import Muster.Text.Bytes
import Muster.Token

/-! Alliances, corporations and characters in the store, with skills and tokens. -/

namespace Muster.Store

def putAlliance (a : Alliance) : Action Unit :=
  modify fun s => { s with alliances := s.alliances.insert a.id ⟨a.name, a.ticker, a.picture⟩ }

def putCorporation (c : Corporation) : Action Unit := do
  needsRow (c.allianceId.all (← get).alliances.contains)
  modify fun s => { s with
    corporations := s.corporations.insert c.id ⟨c.allianceId, c.name, c.ticker, c.picture⟩ }

/-- The corporation must be there. A character that is known keeps its skills and its token, and the
time at which it was written last is that of the engine. -/
def putCharacter (now : Instant) (c : Character) : Action Unit := do
  needsRow ((← get).corporations.contains c.corporationId)
  modify fun s =>
    let old := s.characters.get? c.id
    let row : CharacterRow := ⟨c.name, c.picture, c.corporationId, now.stampText,
      (old.map (·.skills)).getD .empty, old.bind (·.token)⟩
    { s with characters := s.characters.insert c.id row }

def changeCharacter (id : Int) (f : CharacterRow → CharacterRow) : Action Unit :=
  modify fun s => { s with characters := s.characters.adjust id f }

def putSkill (k : CharacterSkill) : Action Unit := do
  needsRow ((← get).characters.contains k.characterId)
  changeCharacter k.characterId fun row => { row with skills := row.skills.insert k.skillId k.level }

def skillTable (s : Store) (id : Int) : Table Int Int :=
  ((s.characters.get? id).map (·.skills)).getD .empty

def skillsStatement : String := "DELETE FROM character_skills WHERE character_id = ?1 AND skill_id IN ("

def dropSkills (id : Int) : List Int → Action Nat :=
  dropKeys skillsStatement (·.skillTable id)
    fun f => changeCharacter id fun row => { row with skills := f row.skills }

/-- Whether there was such a character; all that belongs to it goes too. -/
def dropCharacter (id : Int) : Action Bool := do
  let found := (← get).characters.contains id
  modify fun s => { s with characters := s.characters.erase id }
  return found

def skillsOf (s : Store) (id : Int) : List CharacterSkill :=
  (s.skillTable id).toList.map fun (skill, level) => ⟨id, skill, level⟩

def alliance? (s : Store) (id : Int) : Option Alliance :=
  (s.alliances.get? id).map fun a => ⟨id, a.name, a.ticker, a.picture⟩

def corporation? (s : Store) (id : Int) : Option Corporation :=
  (s.corporations.get? id).map fun c => ⟨id, c.allianceId, c.name, c.ticker, c.picture⟩

def allSkills (s : Store) : List CharacterSkill :=
  s.characters.toList.flatMap fun (id, row) =>
    row.skills.toList.map fun (skill, level) => ⟨id, skill, level⟩

def join (s : Store) (id : Int) (row : CharacterRow) : Option CharacterData :=
  (s.corporation? row.corporationId).map fun c =>
    ⟨⟨id, row.name, row.picture, row.corporationId⟩, c, c.allianceId.bind s.alliance?, []⟩

def character? (s : Store) (id : Int) : Option CharacterData :=
  ((s.characters.get? id).bind (s.join id)).map fun c => { c with skills := s.skillsOf id }

/-- All characters in the order of their names, and of ids where names are alike. The skills of all are
read at once and handed out to their characters. -/
def roster (s : Store) : List CharacterData :=
  let skills := Table.group (·.characterId) s.allSkills
  let rows := Text.sortByName (·.2.name) s.characters.toList
  (rows.filterMap fun (id, row) => s.join id row).map fun c =>
    { c with skills := (skills.get? c.character.id).getD [] }

def putStoredToken (id : Int) (t : StoredToken) : Action Unit := do
  needsRow ((← get).characters.contains id)
  changeCharacter id fun row => { row with token := some t }

/-- The instant is kept to the second. -/
def putToken (t : TokenRow) : Action Unit :=
  putStoredToken t.characterId ⟨t.accessToken, t.refreshToken, t.tokenType, t.expiration.secondsText⟩

def token? (s : Store) (id : Int) : Except StoreError (Option TokenRow) :=
  match (s.characters.get? id).bind (·.token) with
  | none => .ok none
  | some t =>
    match Instant.read? t.expiration with
    | some e => .ok (some ⟨⟨t.accessToken, t.refreshToken, t.tokenType, e⟩, id⟩)
    | none => .error (.invalidValue "expiration" "not a time in RFC 3339")

end Muster.Store
