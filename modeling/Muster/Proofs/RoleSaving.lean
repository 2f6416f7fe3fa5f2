import Muster.Proofs.RoleOrder

/-! A role is written with just the fields and the tags that are given, or nothing is written. -/

namespace Muster

namespace Store

def noSuchTag (tag : Int) : StoreError :=
  .nonRetryable (.invalidValue "tag_id" s!"tag {tag} does not exist")

/-- A role with its tags, each at its last place in a list, is stored and listed, and every other row is
as it was. -/
structure Sets (r : Role) (tags : List Int) (data : RoleData) (s t : Store) : Prop where
  role : data.role = r
  tagIds : data.tagIds = tags.dedup
  current : ∀ g ∈ data.tags, s.tag? g.id = .ok (some g)
  listed : ∃ rs, t.allRoles = .ok rs ∧ rs.filter (fun e => e.role.id = r.id) = [data]
  others : ∀ i, i ≠ r.id → t.roles.get? i = s.roles.get? i
  rest : t = { s with roles := t.roles, lastRole := t.lastRole }

variable {s t : Store} {id p missing : Int} {tags : List Int}

/-- The first tag that is not there ends it, once those before it are linked. -/
theorem linkFrom_of_missing (hrole : s.roles.contains id = true)
    (h : tags.find? (fun tag => !s.tags.contains tag) = some missing) :
    ∃ t, linkFrom id p tags s = (.error (noSuchTag missing), t) := by
  induction tags generalizing s p with
  | nil => cases h
  | cons tag tags ih =>
    rw [linkFrom_cons hrole]
    cases htag : s.tags.contains tag with
    | true =>
      rw [List.find?_cons_of_neg (by simp [htag])] at h
      exact ih ((contains_withRole ..).trans hrole) h
    | false =>
      rw [List.find?_cons_of_pos (by simp [htag])] at h
      cases h
      exact ⟨s, rfl⟩

theorem replaceRoleTags_of_missing (hrole : s.roles.contains id = true)
    (h : tags.find? (fun tag => !s.tags.contains tag) = some missing) :
    ∃ t, replaceRoleTags id tags s = (.error (noSuchTag missing), t) := by
  obtain ⟨t, hlink⟩ := linkFrom_of_missing (p := 0) hrole h
  refine ⟨t, ?_⟩
  rw [replaceRoleTags, get_bind_apply]
  exact bind_of_error hlink

theorem makeRole_of_missing (new : NewRole)
    (h : tags.find? (fun tag => !s.tags.contains tag) = some missing) :
    ∃ t, makeRole new tags s = (.error (noSuchTag missing), t) := by
  let bare : RoleRow := ⟨new.name, new.label, new.operator.name, new.color.toHex, .empty⟩
  have hnew : (s.roles.insert (s.lastRole + 1) bare).contains (s.lastRole + 1) = true := by simp
  obtain ⟨t, hreplace⟩ := replaceRoleTags_of_missing (s := { s with
    lastRole := s.lastRole + 1, roles := s.roles.insert (s.lastRole + 1) bare }) hnew h
  exact ⟨t, by rw [makeRole, bind_of_ok (addRole_eq new s), bind_of_error hreplace]⟩

theorem remakeRole_of_missing {r : Role} (hrole : s.roles.contains r.id = true)
    (h : tags.find? (fun tag => !s.tags.contains tag) = some missing) :
    ∃ t, remakeRole r tags s = (.error (noSuchTag missing), t) := by
  obtain ⟨t, hreplace⟩ := replaceRoleTags_of_missing (s := s.withRole r.id (retitled r))
    ((contains_withRole ..).trans hrole) h
  exact ⟨t, by rw [remakeRole_of_there hrole, bind_of_error hreplace]⟩

theorem length_stale_placed (h : tags.Nodup) : (stale (placed tags) []).length = tags.length := by
  have hall : stale (placed tags) [] = (placed tags).keys :=
    List.filter_eq_self.2 fun _ _ => rfl
  have hkeys : (placed tags).keys.Perm tags := by
    rw [List.perm_ext_iff_of_nodup (Table.nodup_keys _) h]
    intro tag
    have hplaces : (∃ e ∈ placesFrom 0 tags, e.1 = tag) ↔ tag ∈ tags := by
      rw [← List.mem_map, map_placesFrom]
    simpa [Table.mem_keys, placed, Table.contains_ofList] using hplaces
  rw [hall, hkeys.length_eq]

theorem Sound.tagsOf_read (h : s.Sound) {row : RoleRow} (hrow : s.roles.get? id = some row) :
    ∃ ts, s.tagsOf row = .ok ts ∧ ts.map (·.id) = (RoleRow.ordered row).map (·.1) ∧
      ∀ g ∈ ts, s.tag? g.id = .ok (some g) := by
  obtain ⟨ts, hts⟩ := h.tagsOf_ok row
  have hthere : ∀ e ∈ RoleRow.ordered row, ((s.tags.get? e.1).map fun t => (e.1, t)).map (·.1) =
      some e.1 := fun e he => by
    obtain ⟨tag, htag⟩ := h.ordered_there hrow he
    rw [htag, Option.map_some, Option.map_some]
  refine ⟨ts, hts, ?_, fun g hg => ?_⟩
  · rw [map_of_mapM_eq_ok (g := fun t : Tag => t.id) (fun e : Int × TagRow => e.1)
      (fun e t ht => readTag_id ht) hts, List.map_filterMap, List.filterMap_congr hthere]
    exact congrFun List.filterMap_eq_map' _
  · obtain ⟨⟨tag, tagRow⟩, he, hread⟩ := (mem_of_mapM_eq_ok hts).1 hg
    obtain ⟨link, -, hlink⟩ := List.mem_filterMap.1 he
    obtain ⟨_, htag, hpair⟩ := Option.map_eq_some_iff.1 hlink
    cases hpair
    rw [readTag_id hread, tag?, htag]
    exact exceptBind_eq_ok.2 ⟨g, hread, rfl⟩

theorem eq_of_ids {gs gs' : List Tag} (h : gs.map (·.id) = gs'.map (·.id))
    (hgs : ∀ g ∈ gs, s.tag? g.id = .ok (some g)) (hgs' : ∀ g ∈ gs', s.tag? g.id = .ok (some g)) :
    gs = gs' := by
  induction gs generalizing gs' with
  | nil => exact (List.map_eq_nil_iff.1 h.symm).symm
  | cons g gs ih =>
    obtain ⟨g', gs', rfl, hid, hrest⟩ := List.map_eq_cons_iff.1 h.symm
    have hid : g'.id = g.id := hid
    have hsame := hgs g (List.mem_cons_self ..)
    rw [← hid, hgs' g' (List.mem_cons_self ..)] at hsame
    cases hsame
    rw [ih hrest.symm (fun g hg => hgs g (List.mem_cons_of_mem _ hg)) fun g hg =>
      hgs' g (List.mem_cons_of_mem _ hg)]

/-- A role that was written with a list of tags is loaded as it is listed. -/
theorem Sound.loadRole_listed (h : s.Sound) {r : Role}
    (hrow : s.roles.get? r.id = some (roleRow r.toNewRole tags)) :
    ∃ data, loadRole r s = (.ok data, s) ∧ data.role = r ∧ data.tagIds = tags.dedup ∧
      (∀ g ∈ data.tags, s.tag? g.id = .ok (some g)) ∧
      ∃ rs, s.allRoles = .ok rs ∧ rs.filter (fun e => e.role.id = r.id) = [data] := by
  obtain ⟨ts, hts, hids, hcurrent⟩ := h.tagsOf_read hrow
  obtain ⟨rs, e, hrs, hone, hread, htags, hcurrent'⟩ := h.filter_allRoles hrow
  have hrole : e.role = r :=
    (Except.ok.inj ((readRole_roleRow r tags (placed tags)).symm.trans hread)).symm
  have hall : e = ⟨r, ts⟩ := by
    rw [← hrole, eq_of_ids (hids.trans htags.symm) hcurrent hcurrent']
  have hordered : (RoleRow.ordered (roleRow r.toNewRole tags)).map (·.1) = tags.dedup := by
    have hall (tag : Int) : (roleRow r.toNewRole tags).links.get? tag =
        ((placed tags).get? tag).filter fun _ => true := by
      rw [roleRow]
      cases (placed tags).get? tag <;> rfl
    rw [map_ordered hall]
    exact List.filter_eq_self.2 fun _ _ => rfl
  refine ⟨⟨r, ts⟩, ?_, rfl, hids.trans hordered, hcurrent, rs, hrs, hall ▸ hone⟩
  rw [loadRole_eq, hrow, Option.map_some, Option.getD_some, hts]
  rfl

theorem Sound.makeRole_sets (h : s.Sound) (new : NewRole)
    (htags : ∀ tag ∈ tags, s.tags.contains tag = true) :
    ∃ data t, makeRole new tags s = (.ok data, t) ∧ t.lastRole = s.lastRole + 1 ∧
      Sets ⟨new, s.lastRole + 1⟩ tags data s t := by
  have hsound := (Operation.makeRole new tags).keeps_sound s h
  obtain ⟨_, hdone⟩ := h.makeRole_ok new htags
  rw [hdone] at hsound
  have hrow : (s.roles.insert (s.lastRole + 1) (roleRow new tags)).get? (s.lastRole + 1) =
      some (roleRow new tags) := by
    rw [Table.get?_insert, if_pos rfl]
  obtain ⟨data, hload, hrole, hids, hcurrent, hlisted⟩ :=
    hsound.loadRole_listed (r := ⟨new, s.lastRole + 1⟩) hrow
  refine ⟨data, _, by rw [makeRole_eq new htags, hload], rfl, hrole, hids, hcurrent, hlisted,
    fun i hi => ?_, rfl⟩
  rw [Table.get?_insert, if_neg hi]

theorem Sound.remakeRole_sets (h : s.Sound) {r : Role} (hrole : s.roles.contains r.id = true)
    (htags : ∀ tag ∈ tags, s.tags.contains tag = true) (hfew : Droppable (s.linkTable r.id) tags) :
    ∃ data t, remakeRole r tags s = (.ok (some data), t) ∧ t.lastRole = s.lastRole ∧
      Sets r tags data s t := by
  obtain ⟨old, hold⟩ := Option.isSome_iff_exists.1 hrole
  have hsound : Sound (s.withRole r.id fun _ => roleRow r.toNewRole tags) := by
    refine h.changeRole r.id fun _ _ => ⟨⟨r.operator, rfl⟩, ⟨r.color, rfl⟩, fun tag htag => ?_⟩
    obtain ⟨q, hplace⟩ := Option.isSome_iff_exists.1 htag
    exact htags tag (mem_of_placed hplace)
  have hrow : (s.withRole r.id fun _ => roleRow r.toNewRole tags).roles.get? r.id =
      some (roleRow r.toNewRole tags) := by
    rw [withRole, Table.get?_adjust, if_pos rfl, hold, Option.map_some]
  obtain ⟨data, hload, hdata, hids, hcurrent, hlisted⟩ := hsound.loadRole_listed hrow
  refine ⟨data, _, (remakeRole_eq hrole htags hfew).trans (bind_of_ok hload), rfl, hdata, hids, hcurrent,
    hlisted, fun i hi => ?_, rfl⟩
  rw [withRole, Table.get?_adjust, if_neg hi]

end Store

namespace Database

open Store (Sets noSuchTag Droppable)

theorem Reachable.no_next_role {d : Database} (h : d.Reachable) :
    d.store.roles.contains (d.store.lastRole + 1) = false :=
  h.numbered.store.roles.contains_next

/-- If all tags of a list are there, a role is made of them under a new id, and a role that is there is
saved with them, unless it has more links to drop than one statement can name; what is returned is what is
listed then. If one is not there, the first such ends the one attempt that is made. Whatever is not done
leaves the database as it was. A role that is not there is not saved. -/
theorem role_is_written_as_given_or_not_at_all {d : Database} (h : d.Reachable)
    (tags : List Int) :
    (match tags.find? fun tag => !d.store.tags.contains tag with
      | none =>
        (∀ new : NewRole, ∃ data t,
          atomically (Store.makeRole new tags) d = (.ok data, { d with store := t }) ∧
          d.store.roles.contains (d.store.lastRole + 1) = false ∧
          t.lastRole = d.store.lastRole + 1 ∧ Sets ⟨new, d.store.lastRole + 1⟩ tags data d.store t) ∧
        ∀ r : Role, d.store.roles.contains r.id = true →
          if Droppable (d.store.linkTable r.id) tags then ∃ data t,
            atomically (Store.remakeRole r tags) d = (.ok (some data), { d with store := t }) ∧
            t.lastRole = d.store.lastRole ∧ Sets r tags data d.store t
          else atomically (Store.remakeRole r tags) d =
            (.error (overflow Store.roleTagsStatement (d.store.linkTable r.id) tags), d)
      | some tag =>
        (∀ new : NewRole,
          atomically (Store.makeRole new tags) d = (.error (.exhausted [noSuchTag tag]), d)) ∧
        ∀ r : Role, d.store.roles.contains r.id = true →
          atomically (Store.remakeRole r tags) d = (.error (.exhausted [noSuchTag tag]), d)) ∧
    ∀ r : Role, d.store.roles.contains r.id = false →
      atomically (Store.remakeRole r tags) d = (.ok none, d) := by
  have hsound := h.sound
  have transact {α : Type} (a : Store.Action α) := atomically_eq a hsound.idle hsound.whole
  refine ⟨?_, fun r hrole => by rw [transact, Store.remakeRole_of_none hrole]⟩
  cases hmissing : tags.find? fun tag => !d.store.tags.contains tag with
  | none =>
    have htags : ∀ tag ∈ tags, d.store.tags.contains tag = true := by
      simpa using List.find?_eq_none.1 hmissing
    refine ⟨fun new => ?_, fun r hrole => ?_⟩
    · obtain ⟨data, t, hmake, hlast, hsets⟩ := hsound.store.makeRole_sets new htags
      exact ⟨data, t, by rw [transact, hmake], h.no_next_role, hlast, hsets⟩
    · split
      · obtain ⟨data, t, hsave, hlast, hsets⟩ := hsound.store.remakeRole_sets hrole htags ‹_›
        exact ⟨data, t, by rw [transact, hsave], hlast, hsets⟩
      · exact atomically_refused hsound.idle hsound.whole (Store.remakeRole_refused hrole htags ‹_›)
  | some tag =>
    refine ⟨fun new => ?_, fun r hrole => ?_⟩
    · obtain ⟨t, hmake⟩ := Store.makeRole_of_missing new hmissing
      rw [transact, hmake]
      rfl
    · obtain ⟨t, hsave⟩ := Store.remakeRole_of_missing hrole hmissing
      rw [transact, hsave]
      rfl

theorem scout_is_written_as_given_or_not_at_all :
    let d := scouted.database
    d.Reachable ∧
      (∃ data t, atomically (Store.remakeRole ⟨scout, 1⟩ [3, 2, 3]) d =
        (.ok (some data), { d with store := t }) ∧ data.role = ⟨scout, 1⟩ ∧ data.tagIds = [2, 3]) ∧
      atomically (Store.makeRole scout [1, 9, 8]) d = (.error (.exhausted [noSuchTag 9]), d) ∧
      atomically (Store.remakeRole ⟨scout, 1⟩ [1, 9, 8]) d = (.error (.exhausted [noSuchTag 9]), d) ∧
      atomically (Store.remakeRole ⟨scout, 7⟩ [9]) d = (.ok none, d) := by
  intro d
  have hd : d.Reachable := writes_scouted.reachable reachable_tagged
  obtain ⟨hthere, hnone⟩ := role_is_written_as_given_or_not_at_all hd [3, 2, 3]
  obtain ⟨hmissing, -⟩ := role_is_written_as_given_or_not_at_all hd [1, 9, 8]
  obtain ⟨-, hgone⟩ := role_is_written_as_given_or_not_at_all hd [9]
  have hfirst : [3, 2, 3].find? (fun tag => !d.store.tags.contains tag) = none := by decide +kernel
  have hnine : [1, 9, 8].find? (fun tag => !d.store.tags.contains tag) = some 9 := by decide +kernel
  rw [hfirst] at hthere
  rw [hnine] at hmissing
  have hrole : d.store.roles.contains 1 = true := by decide +kernel
  obtain ⟨data, t, hsave, -, hsets⟩ := hthere.2 ⟨scout, 1⟩ hrole
  exact ⟨hd, ⟨data, t, hsave, hsets.role, hsets.tagIds⟩, hmissing.1 scout,
    hmissing.2 ⟨scout, 1⟩ hrole, hgone ⟨scout, 7⟩ (by decide +kernel)⟩

def tagCrowd : Nat → Database
  | 0 => fresh
  | n + 1 => (run (Store.addTag "Crew" (.rgb 0 0 0)) (tagCrowd n)).2

def countUp (n : Nat) : List Int := (List.range n).map fun i : Nat => (i : Int) + 1

def crowded (n : Nat) : Database := (atomically (Store.makeRole scout (countUp n)) (tagCrowd n)).2

theorem nodup_countUp (n : Nat) : (countUp n).Nodup :=
  List.nodup_range.map fun i j h => by omega

theorem reachable_tagCrowd (n : Nat) : (tagCrowd n).Reachable := by
  induction n with
  | zero => exact .fresh
  | succ n ih => exact .run ih (.addTag ..)

theorem reachable_crowded (n : Nat) : (crowded n).Reachable :=
  .atomically (reachable_tagCrowd n) (.makeRole ..)

theorem last_tagCrowd (n : Nat) :
    (tagCrowd n).store.lastTag = n ∧ (tagCrowd n).store.lastRole = 0 := by
  induction n with
  | zero => exact ⟨rfl, rfl⟩
  | succ n ih =>
    rw [tagCrowd, run, Store.addTag_eq]
    exact ⟨congrArg (· + 1) ih.1, ih.2⟩

theorem contains_tagCrowd (n : Nat) : ∀ tag ∈ countUp n, (tagCrowd n).store.tags.contains tag = true := by
  induction n with
  | zero => exact nofun
  | succ n ih =>
    have hnext : countUp (n + 1) = countUp n ++ [(n : Int) + 1] := by
      rw [countUp, List.range_succ, List.map_append, ← countUp]
      rfl
    rw [hnext, tagCrowd, run, Store.addTag_eq, (last_tagCrowd n).1]
    intro tag htag
    rw [List.mem_append, List.mem_singleton] at htag
    rw [Table.contains_insert, Bool.or_eq_true, decide_eq_true_iff]
    exact htag.symm.imp_right (ih tag)

theorem row_crowded (n : Nat) :
    (crowded n).store.roles.get? 1 = some (Store.roleRow scout (countUp n)) := by
  have hsound := (reachable_tagCrowd n).sound
  obtain ⟨data, hmake⟩ := hsound.store.makeRole_ok scout (contains_tagCrowd n)
  rw [crowded, atomically_eq _ hsound.idle hsound.whole, hmake, (last_tagCrowd n).2]
  exact (Table.get?_insert ..).trans (if_pos rfl)

/-- All links of a role are to be dropped when it is saved without tags. -/
theorem length_stale_crowded (n : Nat) :
    (Store.stale ((crowded n).store.linkTable 1) []).length = n := by
  have hlinks : (crowded n).store.linkTable 1 = Store.placed (countUp n) := by
    rw [Store.linkTable, row_crowded]
    rfl
  rw [hlinks, Store.length_stale_placed (nodup_countUp n), countUp, List.length_map, List.length_range]

theorem remakeRole_crowded {n : Nat} (h : Store.variableLimit ≤ n) :
    atomically (Store.remakeRole ⟨scout, 1⟩ []) (crowded n) =
      (.error (.exhausted (List.replicate 3 (Store.refusal Store.roleTagsStatement n 1))), crowded n) := by
  have hsound := (reachable_crowded n).sound
  have hrole : (crowded n).store.roles.contains 1 = true := by
    rw [Table.contains, row_crowded]
    rfl
  have hmany : ¬Droppable ((crowded n).store.linkTable 1) [] := by
    rw [Droppable, length_stale_crowded]
    exact Nat.not_lt_of_le h
  have hrefused := atomically_refused hsound.idle hsound.whole
    (Store.remakeRole_refused (r := ⟨scout, 1⟩) hrole (fun _ h => (List.not_mem_nil h).elim) hmany)
  rw [overflow, length_stale_crowded] at hrefused
  exact hrefused

/-- A role that is linked to a crowd of tags is there, and cannot be saved without them, whatever is
tried. -/
theorem crowded_role_is_not_saved :
    let d := crowded Store.variableLimit
    d.Reachable ∧ d.store.roles.get? 1 = some (Store.roleRow scout (countUp Store.variableLimit)) ∧
      atomically (Store.remakeRole ⟨scout, 1⟩ []) d =
        (.error (.exhausted (List.replicate 3
          (Store.refusal Store.roleTagsStatement Store.variableLimit 1))), d) :=
  ⟨reachable_crowded _, row_crowded _, remakeRole_crowded (Nat.le_refl _)⟩

end Database

end Muster
