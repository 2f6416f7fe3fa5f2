import Muster.Role
import Muster.Store.Tags

/-! Roles in the store, and their links to tags. -/

namespace Muster

/-- A link from a role to a tag; the positions give the order of a role's tags. -/
structure RoleTag where
  roleId : Int
  tagId : Int
  position : Int
deriving Repr, DecidableEq

def RoleTag.toJson (l : RoleTag) : Json :=
  .record [("role_id", .int l.roleId), ("tag_id", .int l.tagId), ("position", .int l.position)]

namespace Store

def addRoleText (name label operator color : String) : Action Int := do
  if (Operator.ofName? operator).isNone then throw (.engine .unknownOperator)
  let id := (← get).lastRole + 1
  modify fun s => { s with
    lastRole := id, roles := s.roles.insert id ⟨name, label, operator, color, .empty⟩ }
  return id

def addRole (r : NewRole) : Action Role := do
  return ⟨r, ← addRoleText r.name r.label r.operator.name r.color.toHex⟩

def changeRole (id : Int) (f : RoleRow → RoleRow) : Action Unit :=
  modify fun s => { s with roles := s.roles.adjust id f }

def updateRole (r : Role) : Action Bool := do
  changeRole r.id fun row => { row with
    name := r.name, label := r.label, operator := r.operator.name, color := r.color.toHex }
  return (← get).roles.contains r.id

/-- Whether there was such a role; its links go too. -/
def dropRole (id : Int) : Action Bool := do
  let found := (← get).roles.contains id
  modify fun s => { s with roles := s.roles.erase id }
  return found

/-- The linked tags in the order of positions, and of ids where positions are alike. -/
def RoleRow.ordered (row : RoleRow) : List (Int × Int) :=
  row.links.toList.mergeSort fun a b => a.2 ≤ b.2

def allRoleTags (s : Store) : List RoleTag :=
  s.roles.toList.flatMap fun (id, row) => (RoleRow.ordered row).map fun (tag, p) => ⟨id, tag, p⟩

def putRoleTag (l : RoleTag) : Action Unit := do
  needsRow ((← get).roles.contains l.roleId && (← get).tags.contains l.tagId)
  changeRole l.roleId fun row => { row with links := row.links.insert l.tagId l.position }

def linkTable (s : Store) (id : Int) : Table Int Int := ((s.roles.get? id).map (·.links)).getD .empty

def roleTagsStatement : String := "DELETE FROM role_tags WHERE role_id = ?1 AND tag_id IN ("

def dropRoleTags (id : Int) : List Int → Action Nat :=
  dropKeys roleTagsStatement (·.linkTable id)
    fun f => changeRole id fun row => { row with links := f row.links }

def tagsOf (s : Store) (row : RoleRow) : Except StoreError (List Tag) :=
  ((RoleRow.ordered row).filterMap fun (tag, _) => (s.tags.get? tag).map fun t => (tag, t)).mapM
    fun (tag, t) => readTag tag t

def readOperator (raw : String) : Except StoreError Operator :=
  match Operator.ofName? raw with
  | some op => .ok op
  | none => .error (.invalidValue "operator" (Operator.refusal raw))

def readRole (id : Int) (row : RoleRow) : Except StoreError Role := do
  return ⟨⟨row.name, row.label, ← readOperator row.operator, ← readColor row.color⟩, id⟩

def allLinkedTags (s : Store) : Except StoreError (List (Int × Tag)) :=
  (s.allRoleTags.filterMap fun l => (s.tags.get? l.tagId).map fun t => (l, t)).mapM
    fun (l, t) => do return (l.roleId, ← readTag l.tagId t)

/-- All roles with their tags, in the order of names and ids. The tags of all are read first and at
once, and handed out to their roles. -/
def allRoles (s : Store) : Except StoreError (List RoleData) := do
  let linked := Table.group (·.1) (← s.allLinkedTags)
  (Text.sortByName (·.2.name) s.roles.toList).mapM fun (id, row) => do
    return ⟨← readRole id row, ((linked.get? id).getD []).map (·.2)⟩

/-- Links a role to tags at the positions from `p` on. A tag that is not there ends all attempts. -/
def linkFrom (id : Int) : Int → List Int → Action Unit
  | _, [] => pure ()
  | p, tag :: tags => do
    if !(← get).tags.contains tag then
      throw (.nonRetryable (.invalidValue "tag_id" s!"tag {tag} does not exist"))
    putRoleTag ⟨id, tag, p⟩
    linkFrom id (p + 1) tags

/-- Makes the tags of a role those given, in that order; a repeated tag has its last place. -/
def replaceRoleTags (id : Int) (tags : List Int) : Action Unit := do
  let before := ((← get).linkTable id).keys
  linkFrom id 0 tags
  let _ ← dropRoleTags id (before.filter fun t => !tags.contains t)

def loadRole (r : Role) : Action RoleData := do
  return ⟨r, ← look fun s => ((s.roles.get? r.id).map s.tagsOf).getD (.ok [])⟩

def makeRole (r : NewRole) (tags : List Int) : Action RoleData := do
  let r ← addRole r
  replaceRoleTags r.id tags
  loadRole r

def remakeRole (r : Role) (tags : List Int) : Action (Option RoleData) := do
  if ← updateRole r then
    replaceRoleTags r.id tags
    return some (← loadRole r)
  else return none

end Store

end Muster
