import Muster.Json.Value

/-! Characters, the corporations and alliances they belong to, and their trained skills. -/

namespace Muster

structure Character where
  id : Int
  name : String
  picture : String
  corporationId : Int
deriving Repr, DecidableEq

structure Corporation where
  id : Int
  allianceId : Option Int
  name : String
  ticker : String
  picture : String
deriving Repr, DecidableEq

structure Alliance where
  id : Int
  name : String
  ticker : String
  picture : String
deriving Repr, DecidableEq

structure CharacterSkill where
  characterId : Int
  skillId : Int
  level : Int
deriving Repr, DecidableEq

structure CharacterData where
  character : Character
  corporation : Corporation
  alliance : Option Alliance
  skills : List CharacterSkill
deriving Repr, DecidableEq

structure SkillName where
  skillId : Int
  name : String
deriving Repr, DecidableEq

def Character.toJson (c : Character) : Json :=
  .record [("id", .int c.id), ("name", .str c.name), ("picture", .str c.picture),
    ("corporation_id", .int c.corporationId)]

def Character.ofJson? (j : Json) : Option Character := do
  match ← j.required? ["id", "name", "picture", "corporation_id"] with
  | [i, n, p, c] => return ⟨← i.asInt64?, ← n.asString?, ← p.asString?, ← c.asInt64?⟩
  | _ => none

def Corporation.toJson (c : Corporation) : Json :=
  .record [("id", .int c.id), ("alliance_id", .ofOption .int c.allianceId), ("name", .str c.name),
    ("ticker", .str c.ticker), ("picture", .str c.picture)]

def Corporation.ofJson? (j : Json) : Option Corporation := do
  match ← j.fields? [("id", .required), ("alliance_id", .nullable), ("name", .required),
      ("ticker", .required), ("picture", .required)] with
  | [some i, a, some n, some t, some p] =>
    return ⟨← i.asInt64?, ← (a.getD .null).asOption? Json.asInt64?, ← n.asString?, ← t.asString?,
      ← p.asString?⟩
  | _ => none

def Alliance.toJson (a : Alliance) : Json :=
  .record [("id", .int a.id), ("name", .str a.name), ("ticker", .str a.ticker),
    ("picture", .str a.picture)]

def Alliance.ofJson? (j : Json) : Option Alliance := do
  match ← j.required? ["id", "name", "ticker", "picture"] with
  | [i, n, t, p] => return ⟨← i.asInt64?, ← n.asString?, ← t.asString?, ← p.asString?⟩
  | _ => none

def CharacterSkill.toJson (s : CharacterSkill) : Json :=
  .record [("character_id", .int s.characterId), ("skill_id", .int s.skillId),
    ("skill_level", .int s.level)]

def CharacterSkill.ofJson? (j : Json) : Option CharacterSkill := do
  match ← j.required? ["character_id", "skill_id", "skill_level"] with
  | [c, s, l] => return ⟨← c.asInt64?, ← s.asInt64?, ← l.asInt64?⟩
  | _ => none

def CharacterData.toJson (d : CharacterData) : Json :=
  .record [("character", d.character.toJson), ("corporation", d.corporation.toJson),
    ("alliance", .ofOption Alliance.toJson d.alliance), ("skills", .list CharacterSkill.toJson d.skills)]

def CharacterData.ofJson? (j : Json) : Option CharacterData := do
  match ← j.fields? [("character", .required), ("corporation", .required), ("alliance", .nullable),
      ("skills", .required)] with
  | [some c, some k, a, some s] =>
    return ⟨← Character.ofJson? c, ← Corporation.ofJson? k,
      ← (a.getD .null).asOption? Alliance.ofJson?, ← s.asList? CharacterSkill.ofJson?⟩
  | _ => none

def SkillName.ofJson? (j : Json) : Option SkillName := do
  match ← j.required? ["skill_id", "name"] with
  | [s, n] => return ⟨← s.asInt64?, ← n.asString?⟩
  | _ => none

end Muster
