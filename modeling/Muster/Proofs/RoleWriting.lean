import Muster.Proofs.StoredText
import Muster.Proofs.TagWriting
import Muster.Store.Roles

/-! Writing a role with its tags leaves exactly those, each at its last place. -/

namespace Muster.Store

def placesFrom : Int → List Int → List (Int × Int)
  | _, [] => []
  | p, tag :: tags => (tag, p) :: placesFrom (p + 1) tags

def placed (tags : List Int) : Table Int Int := .ofList (placesFrom 0 tags)

def withRole (s : Store) (id : Int) (f : RoleRow → RoleRow) : Store :=
  { s with roles := s.roles.adjust id f }

def roleRow (r : NewRole) (tags : List Int) : RoleRow :=
  ⟨r.name, r.label, r.operator.name, r.color.toHex, placed tags⟩

variable {s t : Store} {id p : Int} {tags : List Int}

theorem map_placesFrom (p : Int) (tags : List Int) : (placesFrom p tags).map (·.1) = tags := by
  induction tags generalizing p with
  | nil => rfl
  | cons tag tags ih => rw [placesFrom, List.map_cons, ih]

theorem contains_withRole (s : Store) (id : Int) (f : RoleRow → RoleRow) (k : Int) :
    (s.withRole id f).roles.contains k = s.roles.contains k :=
  Table.contains_adjust f s.roles id k

theorem putRoleTag_eq {l : RoleTag} (hrole : s.roles.contains l.roleId = true)
    (htag : s.tags.contains l.tagId = true) :
    putRoleTag l s = (.ok (), s.withRole l.roleId fun row =>
      { row with links := row.links.insert l.tagId l.position }) := by
  rw [putRoleTag, get_bind_apply, get_bind_apply, hrole, htag]
  rfl

theorem linkFrom_cons (hrole : s.roles.contains id = true) (p tag : Int) (tags : List Int) :
    linkFrom id p (tag :: tags) s =
      if s.tags.contains tag then
        linkFrom id (p + 1) tags (s.withRole id fun row => { row with links := row.links.insert tag p })
      else (.error (.nonRetryable (.invalidValue "tag_id" s!"tag {tag} does not exist")), s) := by
  rw [linkFrom, get_bind_apply]
  cases htag : s.tags.contains tag with
  | false => rfl
  | true =>
    rw [Bool.not_true, if_neg Bool.false_ne_true, if_pos rfl]
    exact bind_of_ok (putRoleTag_eq (l := ⟨id, tag, p⟩) hrole htag)

theorem linkFrom_eq (hrole : s.roles.contains id = true)
    (htags : ∀ tag ∈ tags, s.tags.contains tag = true) :
    linkFrom id p tags s = (.ok (), s.withRole id fun row => { row with
      links := (placesFrom p tags).foldl (fun t e => t.insert e.1 e.2) row.links }) := by
  induction tags generalizing s p with
  | nil =>
    refine Prod.ext rfl ?_
    exact congrArg (fun roles => { s with roles }) (Table.adjust_self s.roles id).symm
  | cons tag tags ih =>
    obtain ⟨htag, htags⟩ := List.forall_mem_cons.1 htags
    rw [linkFrom_cons hrole, if_pos htag, ih ((contains_withRole ..).trans hrole) htags, withRole,
      withRole, Table.adjust_adjust]
    rfl

theorem there_of_linkFrom (hrole : s.roles.contains id = true) {u : Unit}
    (h : linkFrom id p tags s = (.ok u, t)) : ∀ tag ∈ tags, s.tags.contains tag = true := by
  induction tags generalizing s p with
  | nil => exact nofun
  | cons tag tags ih =>
    rw [linkFrom_cons hrole] at h
    split at h
    · have hrest := ih (by rw [contains_withRole, hrole]) h
      exact List.forall_mem_cons.2 ⟨‹_›, hrest⟩
    · cases h

theorem replaceRoleTags_eq (hrole : s.roles.contains id = true)
    (htags : ∀ tag ∈ tags, s.tags.contains tag = true) (hfew : Droppable (s.linkTable id) tags) :
    replaceRoleTags id tags s =
      (.ok (), s.withRole id fun row => { row with links := placed tags }) := by
  obtain ⟨row, hrow⟩ := Option.isSome_iff_exists.1 hrole
  have htable : s.linkTable id = row.links := by rw [linkTable, hrow]; rfl
  have hplaced := apart_stale (placesFrom 0 tags) row.links
  rw [map_placesFrom] at hplaced
  have hwhole : (s.roles.adjust id fun row => { row with
        links := (placesFrom 0 tags).foldl (fun t e => t.insert e.1 e.2) row.links }).adjust id
      (fun row' => { row' with links := apart (stale row.links tags) row'.links }) =
      s.roles.adjust id fun row => { row with links := placed tags } := by
    rw [Table.adjust_adjust]
    refine Table.adjust_congr fun row' hrow' => ?_
    cases hrow.symm.trans hrow'
    rw [hplaced, placed]
  rw [replaceRoleTags, get_bind_apply, bind_of_ok (linkFrom_eq hrole htags), ← stale, dropRoleTags,
    bind_of_ok (dropKeys_eq hfew rfl), htable]
  exact Prod.ext rfl (congrArg (fun roles => { s with roles }) hwhole)

theorem replaceRoleTags_refused (hrole : s.roles.contains id = true)
    (htags : ∀ tag ∈ tags, s.tags.contains tag = true) (hmany : ¬Droppable (s.linkTable id) tags) :
    ∃ t, replaceRoleTags id tags s =
      (.error (refusal roleTagsStatement (stale (s.linkTable id) tags).length 1), t) := by
  rw [replaceRoleTags, get_bind_apply, bind_of_ok (linkFrom_eq hrole htags), ← stale]
  exact ⟨_, bind_of_error (dropKeys_refused (Nat.le_of_not_lt hmany))⟩

/-- Links are replaced only by links to tags that are there, and only if those that go are few. -/
theorem of_replaceRoleTags_ok (hrole : s.roles.contains id = true) {u : Unit}
    (h : replaceRoleTags id tags s = (.ok u, t)) :
    (∀ tag ∈ tags, s.tags.contains tag = true) ∧ Droppable (s.linkTable id) tags := by
  have htags : ∀ tag ∈ tags, s.tags.contains tag = true := by
    rw [replaceRoleTags, get_bind_apply] at h
    obtain ⟨u, m, hlink, -⟩ := bind_eq_ok.1 h
    exact there_of_linkFrom hrole hlink
  refine ⟨htags, ?_⟩
  by_contra hmany
  obtain ⟨t, hrefused⟩ := replaceRoleTags_refused hrole htags hmany
  rw [hrefused] at h
  cases h

theorem loadRole_eq (r : Role) (s : Store) :
    loadRole r s = ((((s.roles.get? r.id).map s.tagsOf).getD (.ok [])).map (RoleData.mk r), s) := by
  have hlook := look_apply (fun s : Store => ((s.roles.get? r.id).map s.tagsOf).getD (.ok [])) s
  rw [loadRole]
  cases hread : ((s.roles.get? r.id).map s.tagsOf).getD (.ok []) with
  | error e => exact bind_of_error (hlook.trans (congrArg (·, s) hread))
  | ok ts => exact bind_of_ok (hlook.trans (congrArg (·, s) hread))

theorem loadRole_eq_ok {r : Role} {data : RoleData} (h : loadRole r s = (.ok data, t)) :
    data.role = r ∧ t = s := by
  rw [loadRole_eq] at h
  obtain ⟨hdata, rfl⟩ := Prod.mk.inj h
  cases hread : ((s.roles.get? r.id).map s.tagsOf).getD (.ok []) with
  | error e =>
    rw [hread] at hdata
    cases hdata
  | ok ts =>
    rw [hread] at hdata
    cases hdata
    exact ⟨rfl, rfl⟩

theorem addRole_eq (r : NewRole) (s : Store) :
    addRole r s = (.ok ⟨r, s.lastRole + 1⟩, { s with
      lastRole := s.lastRole + 1
      roles := s.roles.insert (s.lastRole + 1)
        ⟨r.name, r.label, r.operator.name, r.color.toHex, .empty⟩ }) := by
  have hknown : (Operator.ofName? r.operator.name).isNone = false := by
    rw [Operator.ofName?_name]
    rfl
  rw [addRole, addRoleText, hknown]
  rfl

theorem makeRole_eq (r : NewRole) (htags : ∀ tag ∈ tags, s.tags.contains tag = true) :
    makeRole r tags s = loadRole ⟨r, s.lastRole + 1⟩ { s with
      lastRole := s.lastRole + 1
      roles := s.roles.insert (s.lastRole + 1) (roleRow r tags) } := by
  let bare : RoleRow := ⟨r.name, r.label, r.operator.name, r.color.toHex, .empty⟩
  have hnew : (s.roles.insert (s.lastRole + 1) bare).contains (s.lastRole + 1) = true := by simp
  have hfew : Droppable (linkTable { s with
      lastRole := s.lastRole + 1, roles := s.roles.insert (s.lastRole + 1) bare } (s.lastRole + 1))
      tags := by
    rw [linkTable, Table.get?_insert, if_pos rfl]
    exact droppable_empty tags
  have hreplace := replaceRoleTags_eq (s := { s with
    lastRole := s.lastRole + 1, roles := s.roles.insert (s.lastRole + 1) bare }) hnew htags hfew
  rw [makeRole, bind_of_ok (addRole_eq r s), bind_of_ok hreplace, withRole, Table.insert_adjust]
  rfl

theorem makeRole_eq_ok {r : NewRole} {data : RoleData} (h : makeRole r tags s = (.ok data, t)) :
    data.role = ⟨r, s.lastRole + 1⟩ ∧ (∀ tag ∈ tags, s.tags.contains tag = true) ∧
      t = { s with
        lastRole := s.lastRole + 1
        roles := s.roles.insert (s.lastRole + 1) (roleRow r tags) } := by
  have htags : ∀ tag ∈ tags, s.tags.contains tag = true := by
    rw [makeRole, bind_of_ok (addRole_eq r s)] at h
    obtain ⟨u, m, hreplace, -⟩ := bind_eq_ok.1 h
    exact (of_replaceRoleTags_ok (by simp) hreplace).1
  rw [makeRole_eq r htags] at h
  obtain ⟨hdata, ht⟩ := loadRole_eq_ok h
  exact ⟨hdata, htags, ht⟩

def retitled (r : Role) (row : RoleRow) : RoleRow :=
  { row with name := r.name, label := r.label, operator := r.operator.name, color := r.color.toHex }

theorem updateRole_eq (r : Role) (s : Store) :
    updateRole r s = (.ok (s.roles.contains r.id), s.withRole r.id (retitled r)) := by
  rw [← Table.contains_adjust (retitled r) s.roles r.id r.id]
  rfl

theorem remakeRole_of_there {r : Role} (hrole : s.roles.contains r.id = true) :
    remakeRole r tags s = (do
      replaceRoleTags r.id tags
      return some (← loadRole r)) (s.withRole r.id (retitled r)) := by
  rw [remakeRole, bind_of_ok (updateRole_eq r s), hrole, if_pos rfl]

theorem remakeRole_of_none {r : Role} (hrole : s.roles.contains r.id = false) :
    remakeRole r tags s = (.ok none, s) := by
  have hsame : s.roles.adjust r.id (retitled r) = s.roles := Table.adjust_of_contains_eq_false hrole _
  rw [remakeRole, bind_of_ok (updateRole_eq r s), hrole, if_neg Bool.false_ne_true]
  exact Prod.ext rfl (congrArg (fun roles => { s with roles }) hsame)

theorem contains_retitled {r : Role} (hrole : s.roles.contains r.id = true) :
    (s.withRole r.id (retitled r)).roles.contains r.id = true :=
  (contains_withRole s r.id (retitled r) r.id).trans hrole

theorem linkTable_retitled (s : Store) (r : Role) :
    (s.withRole r.id (retitled r)).linkTable r.id = s.linkTable r.id := by
  rw [linkTable, withRole, Table.get?_adjust, if_pos rfl, Option.map_map]
  rfl

theorem remakeRole_eq {r : Role} (hrole : s.roles.contains r.id = true)
    (htags : ∀ tag ∈ tags, s.tags.contains tag = true) (hfew : Droppable (s.linkTable r.id) tags) :
    remakeRole r tags s =
      (do return some (← loadRole r)) (s.withRole r.id fun _ => roleRow r.toNewRole tags) := by
  rw [← linkTable_retitled] at hfew
  rw [remakeRole_of_there hrole, bind_of_ok (replaceRoleTags_eq (contains_retitled hrole) htags hfew),
    withRole, withRole, Table.adjust_adjust]
  rfl

theorem remakeRole_refused {r : Role} (hrole : s.roles.contains r.id = true)
    (htags : ∀ tag ∈ tags, s.tags.contains tag = true) (hmany : ¬Droppable (s.linkTable r.id) tags) :
    ∃ t, remakeRole r tags s =
      (.error (refusal roleTagsStatement (stale (s.linkTable r.id) tags).length 1), t) := by
  rw [← linkTable_retitled] at hmany ⊢
  obtain ⟨t, hreplace⟩ := replaceRoleTags_refused (contains_retitled hrole) htags hmany
  exact ⟨t, by rw [remakeRole_of_there hrole, bind_of_error hreplace]⟩

/-- Saving a role replaces all that it was, unless there is no such role. -/
theorem remakeRole_eq_ok {r : Role} {data : Option RoleData}
    (h : remakeRole r tags s = (.ok data, t)) :
    data = none ∧ s.roles.contains r.id = false ∧ t = s ∨
      (∃ ts, data = some ⟨r, ts⟩) ∧ s.roles.contains r.id = true ∧
        (∀ tag ∈ tags, s.tags.contains tag = true) ∧
        t = s.withRole r.id fun _ => roleRow r.toNewRole tags := by
  cases hrole : s.roles.contains r.id with
  | true =>
    have hreplaced : (∀ tag ∈ tags, s.tags.contains tag = true) ∧
        Droppable ((s.withRole r.id (retitled r)).linkTable r.id) tags := by
      rw [remakeRole_of_there hrole] at h
      obtain ⟨u, m, hreplace, -⟩ := bind_eq_ok.1 h
      exact of_replaceRoleTags_ok (contains_retitled hrole) hreplace
    obtain ⟨htags, hfew⟩ := hreplaced
    rw [linkTable_retitled] at hfew
    rw [remakeRole_eq hrole htags hfew] at h
    obtain ⟨loaded, m, hload, h⟩ := bind_eq_ok.1 h
    obtain ⟨hdata, rfl⟩ := loadRole_eq_ok hload
    cases h
    exact .inr ⟨⟨loaded.tags, by rw [← hdata]⟩, rfl, htags, rfl⟩
  | false =>
    rw [remakeRole_of_none hrole] at h
    cases h
    exact .inl ⟨rfl, rfl, rfl⟩

def withoutRole (s : Store) (id : Int) : Store := { s with roles := s.roles.erase id }

theorem dropRole_eq (id : Int) (s : Store) :
    dropRole id s = (.ok (s.roles.contains id), s.withoutRole id) := rfl

end Muster.Store
