import Muster.Character
import Muster.Role
import Muster.Table

/-! Which tags and roles a character matches, and whether a filter shows it. -/

namespace Muster

abbrev SkillLevels := Table Int Int

def SkillLevels.level (levels : SkillLevels) (skill : Int) : Int := (levels.get? skill).getD 0

/-- Of repeated skills the last one counts. -/
def CharacterData.levels (c : CharacterData) : SkillLevels :=
  .ofList (c.skills.map fun s => (s.skillId, s.level))

structure TagMatch where
  holds : Bool
  missing : List TagSkill
deriving Repr, DecidableEq

/-- The mismatched tags are those that keep the role from matching; of a `none` role, the ones that
match. -/
structure RoleMatch where
  holds : Bool
  mismatched : List Tag
deriving Repr, DecidableEq

namespace Matching

def missing (levels : SkillLevels) (tag : TagData) : List TagSkill :=
  tag.skills.filter fun r => levels.level r.skillId < r.level

def tag (levels : SkillLevels) (t : TagData) : TagMatch :=
  ⟨(missing levels t).isEmpty, missing levels t⟩

/-- The known tags by their ids; of repeated ids the last one counts. -/
def known (tags : List TagData) : Table Int TagData := .ofList (tags.map fun t => (t.tag.id, t))

/-- Walks over the references of a role, keeping the tags that mismatch so far. A reference to a tag
that is not known is passed over, and a tag that matches ends the walk for an `any` role. -/
def walk (op : Operator) (levels : SkillLevels) (tags : Table Int TagData) :
    List Int → List Tag → RoleMatch
  | [], seen => ⟨op != .any && seen.isEmpty, seen.reverse⟩
  | id :: ids, seen =>
    match tags.get? id with
    | none => walk op levels tags ids seen
    | some t =>
      match op, (tag levels t).holds with
      | .any, true => ⟨true, []⟩
      | .any, false => walk op levels tags ids (t.tag :: seen)
      | .all, true => walk op levels tags ids seen
      | .all, false => walk op levels tags ids (t.tag :: seen)
      | .none, true => walk op levels tags ids (t.tag :: seen)
      | .none, false => walk op levels tags ids seen

def role (levels : SkillLevels) (r : RoleData) (tags : List TagData) : RoleMatch :=
  walk r.role.operator levels (known tags) r.tagIds []

end Matching

structure Filter where
  tagIds : List Int
  roleIds : List Int
deriving Repr, DecidableEq

/-- Every selected id must be the id of some result that holds. -/
def Filter.admits (f : Filter) (tags : List (Int × TagMatch)) (roles : List (Int × RoleMatch)) : Bool :=
  (f.tagIds.all fun id => tags.any fun r => r.1 == id && r.2.holds) &&
    f.roleIds.all fun id => roles.any fun r => r.1 == id && r.2.holds

structure CharacterMatches where
  characterId : Int
  tags : List (Int × TagMatch)
  roles : List (Int × RoleMatch)
  visible : Bool
deriving Repr, DecidableEq

namespace Matching

def character (c : CharacterData) (tags : List TagData) (roles : List RoleData) (f : Filter) :
    CharacterMatches :=
  let tagResults := tags.map fun t => (t.tag.id, tag c.levels t)
  let roleResults := roles.map fun r => (r.role.id, role c.levels r tags)
  ⟨c.character.id, tagResults, roleResults, f.admits tagResults roleResults⟩

def overview (cs : List CharacterData) (tags : List TagData) (roles : List RoleData) (f : Filter) :
    List CharacterMatches :=
  cs.map fun c => character c tags roles f

end Matching

def TagMatch.members (m : TagMatch) : List (String × Json) :=
  [("matches", .bool m.holds), ("missing", .list TagSkill.toJson m.missing)]

def RoleMatch.members (m : RoleMatch) : List (String × Json) :=
  [("matches", .bool m.holds), ("mismatched", .list Tag.toJson m.mismatched)]

def CharacterMatches.toJson (m : CharacterMatches) : Json :=
  .record [("character_id", .int m.characterId),
    ("tags", .list (fun (id, r) => .record (("tag_id", .int id) :: r.members)) m.tags),
    ("roles", .list (fun (id, r) => .record (("role_id", .int id) :: r.members)) m.roles),
    ("visible", .bool m.visible)]

end Muster
