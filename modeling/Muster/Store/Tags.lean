import Muster.Store.Roster
import Muster.Tag
import Muster.Text

/-! Tags and the names of skills in the store. -/

namespace Muster.Store

def addTagText (name color : String) : Action Int := do
  let id := (← get).lastTag + 1
  modify fun s => { s with lastTag := id, tags := s.tags.insert id ⟨name, color, .empty⟩ }
  return id

def addTag (name : String) (color : Color) : Action Tag := do
  return ⟨← addTagText name color.toHex, name, color⟩

def changeTag (id : Int) (f : TagRow → TagRow) : Action Unit :=
  modify fun s => { s with tags := s.tags.adjust id f }

def updateTag (t : Tag) : Action Bool := do
  changeTag t.id fun row => { row with name := t.name, color := t.color.toHex }
  return (← get).tags.contains t.id

/-- Whether there was such a tag. Its requirements go too, and so do the links to it. -/
def dropTag (id : Int) : Action Bool := do
  let found := (← get).tags.contains id
  modify fun s => { s with
    tags := s.tags.erase id
    roles := s.roles.map fun _ row => { row with links := row.links.erase id } }
  return found

def readColor (raw : String) : Except StoreError Color :=
  match Color.ofHex raw with
  | .ok c => .ok c
  | .error e => .error (.invalidValue "color" (e.message raw))

def readTag (id : Int) (row : TagRow) : Except StoreError Tag := do
  return ⟨id, row.name, ← readColor row.color⟩

def tag? (s : Store) (id : Int) : Except StoreError (Option Tag) :=
  (s.tags.get? id).mapM (readTag id)

def requirementsOf (id : Int) (row : TagRow) : List TagSkill :=
  row.requirements.toList.map fun (skill, level) => ⟨id, skill, level⟩

def allTagSkills (s : Store) : List TagSkill :=
  s.tags.toList.flatMap fun (id, row) => requirementsOf id row

/-- All tags with their requirements, in the order of names and ids. The requirements of all are read
at once and handed out to their tags. -/
def allTags (s : Store) : Except StoreError (List TagData) :=
  let asked := Table.group (·.tagId) s.allTagSkills
  (Text.sortByName (·.2.name) s.tags.toList).mapM fun (id, row) => do
    return ⟨← readTag id row, (asked.get? id).getD []⟩

def putTagSkill (k : TagSkill) : Action Unit := do
  needsRow ((← get).tags.contains k.tagId)
  changeTag k.tagId fun row => { row with requirements := row.requirements.insert k.skillId k.level }

def requirementTable (s : Store) (id : Int) : Table Int Int :=
  ((s.tags.get? id).map (·.requirements)).getD .empty

def tagSkillsStatement : String := "DELETE FROM tag_skills WHERE tag_id = ?1 AND skill_id IN ("

def dropTagSkills (id : Int) : List Int → Action Nat :=
  dropKeys tagSkillsStatement (·.requirementTable id)
    fun f => changeTag id fun row => { row with requirements := f row.requirements }

/-- Makes the requirements of a tag those given, of repeated skills the last; lists what was written in
the order of skills. -/
def replaceTagSkills (id : Int) (rs : List SkillRequirement) : Action (List TagSkill) := do
  let before := ((← get).requirementTable id).keys
  let written := rs.map fun r => TagSkill.mk id r.skillId r.level
  written.forM putTagSkill
  let _ ← dropTagSkills id (before.filter fun k => !rs.any fun r => r.skillId == k)
  return written.mergeSort fun a b => a.skillId ≤ b.skillId

def makeTag (name : String) (color : Color) (rs : List SkillRequirement) : Action TagData := do
  let t ← addTag name color
  return ⟨t, ← replaceTagSkills t.id rs⟩

def remakeTag (t : Tag) (rs : List SkillRequirement) : Action (Option TagData) := do
  if ← updateTag t then return some ⟨t, ← replaceTagSkills t.id rs⟩
  else return none

/-! The names of skills in the store. -/

def putSkillNames (names : List SkillName) : Action Unit :=
  modify fun s => { s with
    skillNames := names.foldl (fun t n => t.insert n.skillId n.name) s.skillNames }

/-- The first skill of a name, letter case and blanks around it aside. -/
def skillByName? (s : Store) (name : String) : Option Int :=
  (s.skillNames.toList.find? fun e => Text.collate e.2 (Text.trim name) == .eq).map (·.1)

def namesOf (s : Store) (skills : List Int) : Except StoreError (Table Int String) := do
  let unique := Table.ofList (skills.map fun k => (k, ()))
  needsVariables "SELECT skill_id, name FROM skill_names WHERE skill_id IN (" unique.size 0
  return s.skillNames.filter fun k _ => unique.contains k

def unnamed (s : Store) (skills : List Int) : Except StoreError (List Int) := do
  let known ← s.namesOf skills
  return (Table.ofList ((skills.filter fun k => !known.contains k).map fun k => (k, ()))).keys

def knownSkills (s : Store) : List Int :=
  s.allTagSkills.map (·.skillId) ++ s.roster.flatMap fun c => c.skills.map (·.skillId)

end Muster.Store
