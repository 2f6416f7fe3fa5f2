import Muster.Color

/-! Tags: named sets of skill requirements. -/

namespace Muster

structure SkillRequirement where
  skillId : Int
  level : Int
deriving Repr, DecidableEq

structure TagSkill where
  tagId : Int
  skillId : Int
  level : Int
deriving Repr, DecidableEq

structure Tag where
  id : Int
  name : String
  color : Color
deriving Repr, DecidableEq

structure TagData where
  tag : Tag
  skills : List TagSkill
deriving Repr, DecidableEq

def SkillRequirement.toJson (r : SkillRequirement) : Json :=
  .record [("skill_id", .int r.skillId), ("skill_level", .int r.level)]

def SkillRequirement.ofJson? (j : Json) : Option SkillRequirement := do
  match ← j.required? ["skill_id", "skill_level"] with
  | [s, l] => return ⟨← s.asInt64?, ← l.asInt64?⟩
  | _ => none

def TagSkill.toJson (s : TagSkill) : Json :=
  .record [("tag_id", .int s.tagId), ("skill_id", .int s.skillId), ("skill_level", .int s.level)]

def TagSkill.ofJson? (j : Json) : Option TagSkill := do
  match ← j.required? ["tag_id", "skill_id", "skill_level"] with
  | [t, s, l] => return ⟨← t.asInt64?, ← s.asInt64?, ← l.asInt64?⟩
  | _ => none

def Tag.toJson (t : Tag) : Json :=
  .record [("id", .int t.id), ("name", .str t.name), ("color", t.color.toJson)]

def Tag.ofJson? (j : Json) : Option Tag := do
  match ← j.required? ["id", "name", "color"] with
  | [i, n, c] => return ⟨← i.asInt64?, ← n.asString?, ← Color.ofJson? c⟩
  | _ => none

def TagData.toJson (d : TagData) : Json :=
  .record [("tag", d.tag.toJson), ("skills", .list TagSkill.toJson d.skills)]

def TagData.ofJson? (j : Json) : Option TagData := do
  match ← j.required? ["tag", "skills"] with
  | [t, s] => return ⟨← Tag.ofJson? t, ← s.asList? TagSkill.ofJson?⟩
  | _ => none

end Muster
