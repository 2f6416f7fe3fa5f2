import Muster.Json.Value
import Muster.Tag

/-! Roles: an operator over an ordered list of tags. -/

namespace Muster

/-! How a role combines its tags. -/

inductive Operator where
  | all
  | any
  | none
deriving Repr, DecidableEq

namespace Operator

def name : Operator → String
  | all => "all"
  | any => "any"
  | none => "none"

def ofName? : String → Option Operator
  | "all" => some all
  | "any" => some any
  | "none" => some none
  | _ => Option.none

def refusal (raw : String) : String := s!"{raw} is not a valid operator, try [all, any, none]"

def toJson (op : Operator) : Json := .str op.name

/-- The name, alone or as the only member of an object with the value `null`. -/
def ofJson? : Json → Option Operator
  | .text (some s) => ofName? s
  | .object [(some s, .null)] => ofName? s
  | _ => Option.none

end Operator

structure NewRole where
  name : String
  label : String
  operator : Operator
  color : Color
deriving Repr, DecidableEq

structure Role extends NewRole where
  id : Int
deriving Repr, DecidableEq

structure RoleData where
  role : Role
  tags : List Tag
deriving Repr, DecidableEq

def RoleData.tagIds (d : RoleData) : List Int := d.tags.map (·.id)

def NewRole.members (r : NewRole) : List (String × Json) :=
  [("name", .str r.name), ("label", .str r.label), ("operator", r.operator.toJson),
    ("color", r.color.toJson)]

def NewRole.ofFields? : List Json → Option NewRole
  | [n, l, o, c] => do return ⟨← n.asString?, ← l.asString?, ← Operator.ofJson? o, ← Color.ofJson? c⟩
  | _ => none

def NewRole.ofJson? (j : Json) : Option NewRole := do
  NewRole.ofFields? (← j.required? ["name", "label", "operator", "color"])

def Role.toJson (r : Role) : Json := .record (("id", .int r.id) :: r.toNewRole.members)

def Role.ofJson? (j : Json) : Option Role := do
  match ← j.required? ["id", "name", "label", "operator", "color"] with
  | i :: rest => return ⟨← NewRole.ofFields? rest, ← i.asInt64?⟩
  | [] => none

def RoleData.toJson (d : RoleData) : Json :=
  .record [("role", d.role.toJson), ("tags", .list Tag.toJson d.tags)]

def RoleData.ofJson? (j : Json) : Option RoleData := do
  match ← j.required? ["role", "tags"] with
  | [r, t] => return ⟨← Role.ofJson? r, ← t.asList? Tag.ofJson?⟩
  | _ => none

end Muster
