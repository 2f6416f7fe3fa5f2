import Muster.Json.Value

/-! What ESI says of characters, corporations, alliances and names. -/

namespace Muster.Esi

structure PublicData where
  name : String
  corporationId : Int
  allianceId : Option Int
deriving Repr, DecidableEq

structure Portrait where
  px64 : String
  px128 : String
  px256 : String
  px512 : String
deriving Repr, DecidableEq

structure CorporationData where
  name : String
  ticker : String
  allianceId : Option Int
deriving Repr, DecidableEq

structure CorporationIcons where
  px64 : String
  px128 : String
  px256 : String
deriving Repr, DecidableEq

structure AllianceData where
  name : String
  ticker : String
deriving Repr, DecidableEq

structure AllianceIcons where
  px64 : String
  px128 : String
deriving Repr, DecidableEq

structure Skill where
  id : Int
  trained : Int
  active : Int
  points : Int
deriving Repr, DecidableEq

structure SkillSheet where
  skills : List Skill
  totalPoints : Int
deriving Repr, DecidableEq

structure NamedThing where
  id : Int
  name : String
  category : String
deriving Repr, DecidableEq

/-- The things that some names stand for, of which only types of items are kept. -/
structure NamedTypes where
  types : List (Int × String)
deriving Repr, DecidableEq

def textOr (j : Option Json) : Option String := j.elim (some "") Json.asString?

def intOr (j : Option Json) : Option Int := j.elim (some 0) Json.asInt64?

def idOr (j : Option Json) : Option (Option Int) := (j.getD .null).asOption? Json.asInt64?

def PublicData.ofJson? (j : Json) : Option PublicData := do
  match ← j.fields? [("name", .required), ("corporation_id", .required), ("alliance_id", .defaulted)] with
  | [some n, some c, a] => return ⟨← n.asString?, ← c.asInt64?, ← idOr a⟩
  | _ => none

def Portrait.ofJson? (j : Json) : Option Portrait := do
  match ← j.fields? [("px64x64", .defaulted), ("px128x128", .defaulted), ("px256x256", .defaulted),
      ("px512x512", .defaulted)] with
  | [a, b, c, d] => return ⟨← textOr a, ← textOr b, ← textOr c, ← textOr d⟩
  | _ => none

def CorporationData.ofJson? (j : Json) : Option CorporationData := do
  match ← j.fields? [("name", .required), ("ticker", .required), ("alliance_id", .defaulted)] with
  | [some n, some t, a] => return ⟨← n.asString?, ← t.asString?, ← idOr a⟩
  | _ => none

def CorporationIcons.ofJson? (j : Json) : Option CorporationIcons := do
  match ← j.fields? [("px64x64", .defaulted), ("px128x128", .defaulted), ("px256x256", .defaulted)] with
  | [a, b, c] => return ⟨← textOr a, ← textOr b, ← textOr c⟩
  | _ => none

def AllianceData.ofJson? (j : Json) : Option AllianceData := do
  match ← j.required? ["name", "ticker"] with
  | [n, t] => return ⟨← n.asString?, ← t.asString?⟩
  | _ => none

def AllianceIcons.ofJson? (j : Json) : Option AllianceIcons := do
  match ← j.fields? [("px64x64", .defaulted), ("px128x128", .defaulted)] with
  | [a, b] => return ⟨← textOr a, ← textOr b⟩
  | _ => none

def Skill.ofJson? (j : Json) : Option Skill := do
  match ← j.fields? [("skill_id", .required), ("trained_skill_level", .required),
      ("active_skill_level", .defaulted), ("skillpoints_in_skill", .defaulted)] with
  | [some s, some t, a, p] => return ⟨← s.asInt64?, ← t.asInt64?, ← intOr a, ← intOr p⟩
  | _ => none

def SkillSheet.ofJson? (j : Json) : Option SkillSheet := do
  match ← j.fields? [("skills", .required), ("total_sp", .defaulted)] with
  | [some s, t] => return ⟨← s.asList? Skill.ofJson?, ← intOr t⟩
  | _ => none

def NamedThing.ofJson? (j : Json) : Option NamedThing := do
  match ← j.required? ["id", "name", "category"] with
  | [i, n, c] => return ⟨← i.asInt64?, ← n.asString?, ← c.asString?⟩
  | _ => none

def NamedTypes.entry? (j : Json) : Option (Int × String) := do
  match ← j.required? ["id", "name"] with
  | [i, n] => return (← i.asInt64?, ← n.asString?)
  | _ => none

def NamedTypes.ofJson? (j : Json) : Option NamedTypes := do
  match ← j.fields? [("inventory_types", .defaulted)] with
  | [t] => return ⟨← t.elim (some []) (Json.asList? entry?)⟩
  | _ => none

def PublicData.toJson (d : PublicData) : Json :=
  .record [("name", .str d.name), ("corporation_id", .int d.corporationId),
    ("alliance_id", .ofOption .int d.allianceId)]

def Portrait.toJson (p : Portrait) : Json :=
  .record [("px64x64", .str p.px64), ("px128x128", .str p.px128), ("px256x256", .str p.px256),
    ("px512x512", .str p.px512)]

def CorporationData.toJson (d : CorporationData) : Json :=
  .record [("name", .str d.name), ("ticker", .str d.ticker), ("alliance_id", .ofOption .int d.allianceId)]

def CorporationIcons.toJson (p : CorporationIcons) : Json :=
  .record [("px64x64", .str p.px64), ("px128x128", .str p.px128), ("px256x256", .str p.px256)]

def AllianceData.toJson (d : AllianceData) : Json :=
  .record [("name", .str d.name), ("ticker", .str d.ticker)]

def AllianceIcons.toJson (p : AllianceIcons) : Json :=
  .record [("px64x64", .str p.px64), ("px128x128", .str p.px128)]

def SkillSheet.toJson (s : SkillSheet) : Json :=
  .record [("skills", .list (fun k => .list .int [k.id, k.trained, k.active, k.points]) s.skills),
    ("total_sp", .int s.totalPoints)]

def NamedThing.toJson (t : NamedThing) : Json :=
  .record [("id", .int t.id), ("name", .str t.name), ("category", .str t.category)]

def NamedTypes.toJson (t : NamedTypes) : Json :=
  .record [("inventory_types", .list (fun (i, n) => .record [("id", .int i), ("name", .str n)]) t.types)]

end Muster.Esi
