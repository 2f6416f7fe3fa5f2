import Mathlib.Data.List.Dedup
import Muster.Proofs.Reading
import Muster.Proofs.RoleWriting

/-! Reading roles: the tags of a role come in the order in which they were written, each at its last
place. -/

namespace Muster

namespace Store

def lastPlacesFrom : Int → List Int → List (Int × Int)
  | _, [] => []
  | p, tag :: tags =>
    if tag ∈ tags then lastPlacesFrom (p + 1) tags else (tag, p) :: lastPlacesFrom (p + 1) tags

theorem map_lastPlacesFrom (p : Int) (tags : List Int) :
    (lastPlacesFrom p tags).map (·.1) = tags.dedup := by
  induction tags generalizing p with
  | nil => rfl
  | cons tag tags ih =>
    rw [lastPlacesFrom, List.dedup_cons]
    split
    · exact ih (p + 1)
    · rw [List.map_cons, ih (p + 1)]

theorem le_of_mem_lastPlacesFrom {p : Int} {tags : List Int} {e : Int × Int}
    (h : e ∈ lastPlacesFrom p tags) : p ≤ e.2 := by
  induction tags generalizing p with
  | nil => cases h
  | cons tag tags ih =>
    rw [lastPlacesFrom] at h
    split at h
    · exact Int.le_of_lt (ih h)
    · obtain rfl | h := List.mem_cons.1 h
      · exact Int.le_refl p
      · exact Int.le_of_lt (ih h)

theorem pairwise_lastPlacesFrom (p : Int) (tags : List Int) :
    (lastPlacesFrom p tags).Pairwise fun a b => a.2 < b.2 := by
  induction tags generalizing p with
  | nil => exact .nil
  | cons tag tags ih =>
    rw [lastPlacesFrom]
    split
    · exact ih (p + 1)
    · exact List.pairwise_cons.2 ⟨fun e he => le_of_mem_lastPlacesFrom he, ih (p + 1)⟩

theorem exists_mem_lastPlacesFrom (p : Int) {tag : Int} {tags : List Int} :
    (∃ q, (tag, q) ∈ lastPlacesFrom p tags) ↔ tag ∈ tags := by
  rw [← List.mem_dedup, ← map_lastPlacesFrom p tags, List.mem_map]
  constructor
  · rintro ⟨q, hq⟩
    exact ⟨(tag, q), hq, rfl⟩
  · rintro ⟨⟨tag, q⟩, hq, rfl⟩
    exact ⟨q, hq⟩

/-- The place under which a tag is kept is its last one. -/
theorem get?_ofList_placesFrom {p q tag : Int} {tags : List Int} :
    (Table.ofList (placesFrom p tags)).get? tag = some q ↔ (tag, q) ∈ lastPlacesFrom p tags := by
  -- On the list: the place of its head counts only when the head does not come again.
  induction tags generalizing p q with
  | nil => simp [placesFrom, lastPlacesFrom, Table.ofList]
  | cons other tags ih =>
    have hcons : (Table.ofList (placesFrom p (other :: tags))).get? tag =
        ((Table.ofList (placesFrom (p + 1) tags)).get? tag).or
          (if tag = other then some p else none) := by
      rw [placesFrom, Table.ofList, List.foldl_cons, Table.get?_foldl_insert, Table.get?_insert]
      rfl
    have hmem : (∃ q', (tag, q') ∈ lastPlacesFrom (p + 1) tags) ↔ tag ∈ tags :=
      exists_mem_lastPlacesFrom (p + 1)
    rw [hcons, lastPlacesFrom]
    cases hrest : (Table.ofList (placesFrom (p + 1) tags)).get? tag with
    | some q' =>
      have hplace := ih.1 hrest
      have hlater : tag ∈ tags := hmem.1 ⟨q', hplace⟩
      rw [Option.some_or, ← hrest, ih]
      split
      · rfl
      · have hne : tag ≠ other := fun he => ‹other ∉ tags› (he ▸ hlater)
        simp [hne]
    | none =>
      have hnot (q' : Int) : (tag, q') ∉ lastPlacesFrom (p + 1) tags := fun h => by
        simp [ih.2 h] at hrest
      have hnever : tag ∉ tags := fun h => by
        obtain ⟨q', hq'⟩ := hmem.2 h
        exact hnot q' hq'
      rw [Option.none_or]
      by_cases he : tag = other
      · subst he
        simp [hnever, hnot, eq_comm]
      · have hnone : (tag, q) ∉ if other ∈ tags then lastPlacesFrom (p + 1) tags
            else (other, p) :: lastPlacesFrom (p + 1) tags := by
          split <;> simp [hnot, he]
        simp [he, hnone]

theorem eq_of_pairwise_places {l m : List (Int × Int)} (hl : l.Pairwise fun a b => a.2 ≤ b.2)
    (hm : m.Pairwise fun a b => a.2 < b.2) (hperm : l.Perm m) : l = m := by
  have hplaces : (m.map Prod.snd).Nodup := List.pairwise_map.2 (hm.imp fun hab => Int.ne_of_lt hab)
  have hdistinct : l.Pairwise fun a b => a.2 ≠ b.2 :=
    List.pairwise_map.1 ((hperm.map Prod.snd).nodup_iff.2 hplaces)
  have hstrict : l.Pairwise fun a b => a.2 < b.2 :=
    (hl.and hdistinct).imp fun ⟨hle, hne⟩ => by omega
  exact hperm.eq_of_pairwise (fun a b _ _ hab hba => absurd hba (Int.lt_asymm hab)) hstrict hm

theorem ordered_eq {row : RoleRow} {tags : List Int} {there : Int → Bool}
    (h : ∀ tag, row.links.get? tag = ((placed tags).get? tag).filter fun _ => there tag) :
    RoleRow.ordered row = (lastPlacesFrom 0 tags).filter fun e => there e.1 := by
  have hplaces : (lastPlacesFrom 0 tags).Nodup :=
    (pairwise_lastPlacesFrom 0 tags).imp fun hab he => Int.ne_of_lt hab (congrArg Prod.snd he)
  have hperm : row.links.toList.Perm ((lastPlacesFrom 0 tags).filter fun e => there e.1) := by
    rw [List.perm_ext_iff_of_nodup (Table.nodup_toList _) (hplaces.filter _)]
    rintro ⟨tag, q⟩
    rw [Table.mem_toList, h, Option.filter_eq_some_iff, placed, get?_ofList_placesFrom,
      List.mem_filter]
  exact eq_of_pairwise_places (pairwise_mergeSort_key Prod.snd row.links.toList)
    ((pairwise_lastPlacesFrom 0 tags).filter _) ((List.mergeSort_perm _ _).trans hperm)

theorem map_ordered {row : RoleRow} {tags : List Int} {there : Int → Bool}
    (h : ∀ tag, row.links.get? tag = ((placed tags).get? tag).filter fun _ => there tag) :
    (RoleRow.ordered row).map (·.1) = tags.dedup.filter there := by
  rw [ordered_eq h, ← map_lastPlacesFrom 0 tags, List.filter_map]
  rfl

theorem filter_allRoleTags {s : Store} {id : Int} {row : RoleRow} (hrow : s.roles.get? id = some row) :
    s.allRoleTags.filter (fun l => l.roleId = id) =
      (RoleRow.ordered row).map fun e => ⟨id, e.1, e.2⟩ := by
  have hkey (e : Int × RoleRow) (l : RoleTag)
      (hl : l ∈ (RoleRow.ordered e.2).map fun p => RoleTag.mk e.1 p.1 p.2) : l.roleId = e.1 := by
    obtain ⟨p, -, rfl⟩ := List.mem_map.1 hl
    rfl
  rw [allRoleTags, Table.filter_flatMap_toList _ _ _ hkey, hrow]
  rfl

theorem tag?_of_mem_allLinkedTags {s : Store} {ls : List (Int × Tag)} (h : s.allLinkedTags = .ok ls)
    {l : Int × Tag} (hl : l ∈ ls) : s.tag? l.2.id = .ok (some l.2) := by
  obtain ⟨⟨link, row⟩, hlink, hread⟩ := (mem_of_mapM_eq_ok h).1 hl
  obtain ⟨link', -, hrow⟩ := List.mem_filterMap.1 hlink
  obtain ⟨row', hget, hpair⟩ := Option.map_eq_some_iff.1 hrow
  cases hpair
  obtain ⟨tag, htag, hread⟩ := exceptBind_eq_ok.1 hread
  cases hread
  dsimp only
  rw [readTag_id htag, tag?, hget]
  exact exceptBind_eq_ok.2 ⟨tag, htag, rfl⟩

theorem Sound.ordered_there {s : Store} (h : s.Sound) {id : Int} {row : RoleRow}
    (hrow : s.roles.get? id = some row) {e : Int × Int} (he : e ∈ RoleRow.ordered row) :
    ∃ tag, s.tags.get? e.1 = some tag := by
  have hlink : row.links.contains e.1 = true := Option.isSome_iff_exists.2 ⟨e.2, mem_ordered.1 he⟩
  exact Option.isSome_iff_exists.1 ((h.roles id row hrow).2.2 e.1 hlink)

/-- The links of a role are read in its order, and none is left out. -/
theorem Sound.map_filter_allLinkedTags {s : Store} (h : s.Sound) {ls : List (Int × Tag)}
    (hls : s.allLinkedTags = .ok ls) {id : Int} {row : RoleRow} (hrow : s.roles.get? id = some row) :
    (ls.filter fun l => l.1 = id).map (·.2.id) = (RoleRow.ordered row).map (·.1) := by
  have hfiltered := filter_of_mapM_eq_ok (p := fun l : Int × Tag => l.1 = id)
    (q := fun l : RoleTag × TagRow => l.1.roleId = id) (fun l x hx => ?_) hls
  · have hids := map_of_mapM_eq_ok (g := fun x : Int × Tag => x.2.id) (fun l => l.1.tagId)
      (fun l x hx => ?_) hfiltered
    · have hthere : ∀ e ∈ RoleRow.ordered row,
          (s.tags.get? e.1).map (fun _ => e.1) = some e.1 := fun e he => by
        obtain ⟨tag, htag⟩ := h.ordered_there hrow he
        rw [htag, Option.map_some]
      rw [hids, List.filter_filterMap, List.map_filterMap]
      calc s.allRoleTags.filterMap _
          = (s.allRoleTags.filter fun l => l.roleId = id).filterMap fun l =>
              (s.tags.get? l.tagId).map fun _ => l.tagId := by
            rw [List.filterMap_filter]
            refine List.filterMap_congr fun l _ => ?_
            by_cases hrole : l.roleId = id <;> cases s.tags.get? l.tagId <;> simp [hrole]
        _ = (RoleRow.ordered row).filterMap fun e => (s.tags.get? e.1).map fun _ => e.1 := by
            rw [filter_allRoleTags hrow, List.filterMap_map]
            rfl
        _ = (RoleRow.ordered row).map (·.1) := by
            rw [List.filterMap_congr hthere]
            exact congrFun List.filterMap_eq_map' _
    · obtain ⟨tag, htag, hx⟩ := exceptBind_eq_ok.1 hx
      cases hx
      exact readTag_id htag
  · obtain ⟨tag, htag, hx⟩ := exceptBind_eq_ok.1 hx
    cases hx
    rfl

theorem Sound.filter_allRoles {s : Store} (h : s.Sound) {id : Int} {row : RoleRow}
    (hrow : s.roles.get? id = some row) :
    ∃ rs e, s.allRoles = .ok rs ∧ rs.filter (fun d => d.role.id = id) = [e] ∧
      readRole id row = .ok e.role ∧ e.tags.map (·.id) = (RoleRow.ordered row).map (·.1) ∧
      ∀ t ∈ e.tags, s.tag? t.id = .ok (some t) := by
  obtain ⟨ls, hls⟩ := h.allLinkedTags_ok
  obtain ⟨rs, hrs⟩ := h.allRoles_ok
  have hlist := hrs
  rw [allRoles, hls] at hlist
  have hfiltered := filter_of_mapM_eq_ok (p := fun d : RoleData => d.role.id = id)
    (q := fun e : Int × RoleRow => e.1 = id) (fun e d hd => ?_) hlist
  · rw [filter_sortByName _ hrow] at hfiltered
    obtain ⟨e, rest, he, hrest, hfiltered⟩ := mapM_cons_eq_ok.1 hfiltered
    cases hrest
    obtain ⟨role, hrole, he⟩ := exceptBind_eq_ok.1 he
    cases he
    refine ⟨rs, _, hrs, hfiltered, hrole, ?_, fun t ht => ?_⟩
    · dsimp only
      rw [Table.getD_get?_group, List.map_map]
      exact h.map_filter_allLinkedTags hls hrow
    · dsimp only at ht
      rw [Table.getD_get?_group] at ht
      obtain ⟨l, hl, rfl⟩ := List.mem_map.1 ht
      exact tag?_of_mem_allLinkedTags hls (List.mem_filter.1 hl).1
  · obtain ⟨role, hrole, hd⟩ := exceptBind_eq_ok.1 hd
    cases hd
    rw [readRole_id hrole]

/-! A role can be made of all tags that are there -/

theorem Sound.tagsOf_ok {s : Store} (h : s.Sound) (row : RoleRow) : ∃ ts, s.tagsOf row = .ok ts := by
  refine exists_mapM_eq_ok fun e he => ?_
  obtain ⟨link, -, hlink⟩ := List.mem_filterMap.1 he
  obtain ⟨tag, htag, hpair⟩ := Option.map_eq_some_iff.1 hlink
  cases hpair
  exact h.tag_ok htag

theorem Sound.loadRole_ok {s : Store} (h : s.Sound) (r : Role) :
    ∃ data, loadRole r s = (.ok data, s) := by
  have hread : ∃ ts, ((s.roles.get? r.id).map s.tagsOf).getD (.ok []) = .ok ts := by
    cases s.roles.get? r.id with
    | none => exact ⟨[], rfl⟩
    | some row => exact h.tagsOf_ok row
  obtain ⟨ts, hts⟩ := hread
  exact ⟨⟨r, ts⟩, by rw [loadRole_eq, hts]; rfl⟩

theorem Sound.makeRole_ok {s : Store} (h : s.Sound) (new : NewRole) {tags : List Int}
    (htags : ∀ tag ∈ tags, s.tags.contains tag = true) :
    ∃ data, makeRole new tags s = (.ok data, { s with
      lastRole := s.lastRole + 1
      roles := s.roles.insert (s.lastRole + 1) (roleRow new tags) }) := by
  have hmade := (Operation.makeRole new tags).keeps_sound s h
  rw [makeRole_eq new htags] at hmade ⊢
  rw [loadRole_eq] at hmade
  exact hmade.loadRole_ok _

end Store

end Muster
