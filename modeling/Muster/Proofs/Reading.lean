import Mathlib.Data.List.Basic
import Muster.Proofs.Collation
import Muster.Proofs.Soundness

/-! What is read of a store: the roster is made of its characters, and the readers of a sound store
succeed. -/

namespace Muster

variable {α β ε : Type}

theorem exists_mapM_eq_ok {f : α → Except ε β} {xs : List α} (h : ∀ x ∈ xs, ∃ y, f x = .ok y) :
    ∃ ys, xs.mapM f = .ok ys := by
  induction xs with
  | nil => exact ⟨[], rfl⟩
  | cons x xs ih =>
    obtain ⟨y, hy⟩ := h x (by simp)
    obtain ⟨ys, hys⟩ := ih fun z hz => h z (by simp [hz])
    refine ⟨y :: ys, ?_⟩
    rw [List.mapM_cons, hy, hys]
    rfl

theorem mapM_cons_eq_ok {f : α → Except ε β} {x : α} {xs : List α} {ys : List β} :
    (x :: xs).mapM f = .ok ys ↔ ∃ y zs, f x = .ok y ∧ xs.mapM f = .ok zs ∧ ys = y :: zs := by
  rw [List.mapM_cons, exceptBind_eq_ok]
  constructor
  · rintro ⟨y, hy, h⟩
    obtain ⟨zs, hzs, h⟩ := exceptBind_eq_ok.1 h
    cases h
    exact ⟨y, zs, hy, hzs, rfl⟩
  · rintro ⟨y, zs, hy, hzs, rfl⟩
    exact ⟨y, hy, exceptBind_eq_ok.2 ⟨zs, hzs, rfl⟩⟩

theorem mem_of_mapM_eq_ok {f : α → Except ε β} {xs : List α} {ys : List β} (h : xs.mapM f = .ok ys)
    {y : β} : y ∈ ys ↔ ∃ x ∈ xs, f x = .ok y := by
  induction xs generalizing ys with
  | nil =>
    cases h
    simp
  | cons x xs ih =>
    obtain ⟨z, zs, hx, hxs, rfl⟩ := mapM_cons_eq_ok.1 h
    simp [ih hxs, hx, eq_comm]

theorem map_of_mapM_eq_ok {γ : Type} {f : α → Except ε β} {g : β → γ} (key : α → γ)
    (hf : ∀ x y, f x = .ok y → g y = key x) {xs : List α} {ys : List β}
    (h : xs.mapM f = .ok ys) : ys.map g = xs.map key := by
  induction xs generalizing ys with
  | nil =>
    cases h
    rfl
  | cons x xs ih =>
    obtain ⟨y, zs, hx, hxs, rfl⟩ := mapM_cons_eq_ok.1 h
    rw [List.map_cons, List.map_cons, hf x y hx, ih hxs]

theorem filter_of_mapM_eq_ok {f : α → Except ε β} {p : β → Bool} {q : α → Bool}
    (hf : ∀ x y, f x = .ok y → p y = q x) {xs : List α} {ys : List β} (h : xs.mapM f = .ok ys) :
    (xs.filter q).mapM f = .ok (ys.filter p) := by
  induction xs generalizing ys with
  | nil =>
    cases h
    rfl
  | cons x xs ih =>
    obtain ⟨y, zs, hx, hxs, rfl⟩ := mapM_cons_eq_ok.1 h
    rw [List.filter_cons, List.filter_cons, hf x y hx]
    split
    · exact mapM_cons_eq_ok.2 ⟨y, zs.filter p, hx, ih hxs, rfl⟩
    · exact ih hxs

theorem le_key_trans (key : α → Int) (a b c : α) :
    decide (key a ≤ key b) = true → decide (key b ≤ key c) = true → decide (key a ≤ key c) = true := by
  simpa using le_trans

theorem le_key_total (key : α → Int) (a b : α) :
    (decide (key a ≤ key b) || decide (key b ≤ key a)) = true := by
  simpa using le_total (key a) (key b)

theorem pairwise_mergeSort_key (key : α → Int) (l : List α) :
    (l.mergeSort fun a b => key a ≤ key b).Pairwise fun a b => key a ≤ key b :=
  (List.pairwise_mergeSort (le_key_trans key) (le_key_total key) l).imp of_decide_eq_true

theorem filter_mergeSort_key (key : α → Int) (l : List α) (k : Int) :
    (l.mergeSort fun a b => key a ≤ key b).filter (fun a => key a = k) =
      l.filter fun a => key a = k := by
  have halike : (l.filter fun a => key a = k).Pairwise fun a b => decide (key a ≤ key b) = true := by
    refine List.pairwise_of_forall_mem_list fun a ha b hb => ?_
    have ha : key a = k := by simpa using (List.mem_filter.1 ha).2
    have hb : key b = k := by simpa using (List.mem_filter.1 hb).2
    exact decide_eq_true (Int.le_of_eq (ha.trans hb.symm))
  have hsub := (List.sublist_mergeSort (le_key_trans key) (le_key_total key) halike
    List.filter_sublist).filter fun a => key a = k
  rw [List.filter_filter] at hsub
  simp only [Bool.and_self] at hsub
  exact (hsub.eq_of_length (((List.mergeSort_perm l _).filter _).length_eq).symm).symm

theorem eq_of_filter_key {key : α → Int} {l m : List α} (hl : l.Pairwise fun a b => key a ≤ key b)
    (hm : m.Pairwise fun a b => key a ≤ key b)
    (h : ∀ k, l.filter (fun a => key a = k) = m.filter fun a => key a = k) : l = m := by
  induction l generalizing m with
  | nil =>
    refine (List.eq_nil_iff_forall_not_mem.2 fun b hb => ?_).symm
    simpa [hb] using congrArg (b ∈ ·) (h (key b))
  | cons a l ih =>
    have hmem (b : α) : b ∈ a :: l ↔ b ∈ m := by simpa using congrArg (b ∈ ·) (h (key b))
    obtain ⟨b, m, rfl⟩ := List.exists_cons_of_ne_nil
      (List.ne_nil_of_mem ((hmem a).1 (List.mem_cons_self ..)))
    obtain ⟨ha, hl'⟩ := List.pairwise_cons.1 hl
    obtain ⟨hb, hm'⟩ := List.pairwise_cons.1 hm
    -- Each head has the least key of its list, so that both have the same, and are the first of that key.
    have hba : key b ≤ key a := (List.mem_cons.1 ((hmem a).1 (List.mem_cons_self ..))).elim
      (fun he => he ▸ Int.le_refl _) (hb a)
    have hab : key a ≤ key b := (List.mem_cons.1 ((hmem b).2 (List.mem_cons_self ..))).elim
      (fun he => he ▸ Int.le_refl _) (ha b)
    have hkey : key b = key a := Int.le_antisymm hba hab
    have hhead := h (key a)
    rw [List.filter_cons_of_pos (by simp), List.filter_cons_of_pos (by simp [hkey])] at hhead
    obtain ⟨rfl, htail⟩ := List.cons.inj hhead
    refine congrArg (a :: ·) (ih hl' hm' fun k => ?_)
    by_cases hk : key a = k
    · exact hk ▸ htail
    · have hrest := h k
      rwa [List.filter_cons_of_neg (by simpa), List.filter_cons_of_neg (by simpa)] at hrest

theorem mergeSort_filter_key (key : α → Int) (p : α → Bool) (l : List α) :
    ((l.filter p).mergeSort fun a b => key a ≤ key b) =
      (l.mergeSort fun a b => key a ≤ key b).filter p := by
  refine eq_of_filter_key (pairwise_mergeSort_key key _) ((pairwise_mergeSort_key key l).filter p)
    fun k => ?_
  rw [filter_mergeSort_key, List.filter_comm, ← filter_mergeSort_key key l, List.filter_comm]

theorem filter_sortByName {t : Table Int β} {k : Int} {v : β} (name : Int × β → String)
    (h : t.get? k = some v) :
    (Text.sortByName name t.toList).filter (fun e => e.1 = k) = [(k, v)] := by
  have hone := Table.filter_flatMap_toList t (fun e => [e]) (·.1)
    (fun e x hx => by rw [List.mem_singleton.1 hx]) k
  rw [h, List.flatMap_singleton'] at hone
  exact List.perm_singleton.1 (((Text.sortByName_perm name _).filter _).trans (.of_eq hone))

theorem exists_return_ok {x : Except ε α} (h : ∃ a, x = .ok a) (f : α → β) :
    ∃ b, (do return f (← x)) = .ok b := by
  obtain ⟨a, rfl⟩ := h
  exact ⟨f a, rfl⟩

namespace Store

/-! One character and all of them -/

theorem join_id {s : Store} {id : Int} {row : CharacterRow} {c : CharacterData}
    (h : s.join id row = some c) : c.character.id = id := by
  obtain ⟨k, -, rfl⟩ := Option.map_eq_some_iff.1 h
  rfl

theorem character?_id {s : Store} {id : Int} {c : CharacterData} (h : s.character? id = some c) :
    c.character.id = id := by
  obtain ⟨c, hc, rfl⟩ := Option.map_eq_some_iff.1 h
  obtain ⟨row, -, hj⟩ := Option.bind_eq_some_iff.1 hc
  have hid : c.character.id = id := join_id hj
  exact hid

theorem filter_allSkills (s : Store) (id : Int) :
    s.allSkills.filter (fun k => k.characterId = id) = s.skillsOf id := by
  have hkey (e : Int × CharacterRow) (k : CharacterSkill)
      (hk : k ∈ e.2.skills.toList.map fun p => CharacterSkill.mk e.1 p.1 p.2) :
      k.characterId = e.1 := by
    obtain ⟨p, -, rfl⟩ := List.mem_map.1 hk
    rfl
  rw [allSkills, Table.filter_flatMap_toList _ _ _ hkey, skillsOf, skillTable]
  cases s.characters.get? id <;> rfl

def ranked (s : Store) : List (Int × CharacterRow) :=
  Text.sortByName (·.2.name) s.characters.toList

theorem ranked_perm (s : Store) : s.ranked.Perm s.characters.toList := Text.sortByName_perm _ _

theorem mem_ranked {s : Store} {id : Int} {row : CharacterRow} :
    (id, row) ∈ s.ranked ↔ s.characters.get? id = some row := by
  rw [s.ranked_perm.mem_iff, Table.mem_toList]

theorem pairwise_ranked (s : Store) : s.ranked.Pairwise fun a b =>
    (Text.collate a.2.name b.2.name).then (compare a.1 b.1) = .lt := by
  have h := Text.pairwise_sortByName (·.2.name) _ _ s.characters.ascending
  refine h.imp fun hab => ?_
  obtain hlt | ⟨heq, hlt⟩ := hab
  · rw [hlt]
    rfl
  · rw [heq]
    exact hlt

/-- The roster is made of the characters as they are read one by one. -/
theorem roster_eq (s : Store) : s.roster = s.ranked.filterMap fun e => s.character? e.1 := by
  rw [roster, List.map_filterMap]
  refine List.filterMap_congr fun e he => ?_
  have hrow : s.characters.get? e.1 = some e.2 := mem_ranked.1 he
  rw [character?, hrow, Option.bind_some]
  refine Option.map_congr fun c hc => ?_
  rw [join_id hc, Table.getD_get?_group, filter_allSkills]

theorem Sound.isSome_character? {s : Store} (h : s.Sound) (id : Int) :
    (s.character? id).isSome = (s.characters.get? id).isSome := by
  rw [character?, Option.isSome_map]
  cases hrow : s.characters.get? id with
  | none => rfl
  | some row =>
    have hcorp : (s.corporations.get? row.corporationId).isSome = true := h.characters id row hrow
    rw [Option.bind_some, join, Option.isSome_map, corporation?, Option.isSome_map, hcorp]
    rfl

theorem find?_filterMap {f : Int × β → Option α} {key : α → Int} {l : List (Int × β)}
    (hf : ∀ e ∈ l, ∃ a, f e = some a ∧ key a = e.1) (k : Int) :
    (l.filterMap f).find? (fun a => key a = k) = (l.find? fun e => e.1 = k).bind f := by
  induction l with
  | nil => rfl
  | cons e l ih =>
    obtain ⟨a, ha, hk⟩ := hf e (by simp)
    rw [List.filterMap_cons, ha, List.find?_cons, List.find?_cons, hk]
    by_cases he : e.1 = k
    · simp [he, ha]
    · simpa [he] using ih fun e' he' => hf e' (by simp [he'])

theorem Sound.character?_ranked {s : Store} (h : s.Sound) {e : Int × CharacterRow}
    (he : e ∈ s.ranked) : ∃ c, s.character? e.1 = some c ∧ c.character.id = e.1 := by
  have hrow : s.characters.get? e.1 = some e.2 := mem_ranked.1 he
  have hsome := h.isSome_character? e.1
  rw [hrow] at hsome
  obtain ⟨c, hc⟩ := Option.isSome_iff_exists.1 hsome
  exact ⟨c, hc, character?_id hc⟩

theorem Sound.map_id_roster {s : Store} (h : s.Sound) :
    s.roster.map (·.character.id) = s.ranked.map (·.1) := by
  rw [roster_eq, List.map_filterMap, ← List.filterMap_eq_map]
  refine List.filterMap_congr fun e he => ?_
  obtain ⟨c, hc, hid⟩ := h.character?_ranked he
  rw [hc, Option.map_some, hid]
  rfl

theorem Sound.find?_roster {s : Store} (h : s.Sound) (id : Int) :
    s.roster.find? (fun c => c.character.id = id) = s.character? id := by
  rw [roster_eq, find?_filterMap fun e he => h.character?_ranked he]
  cases hf : s.ranked.find? fun e => e.1 = id with
  | none =>
    have hnone : s.characters.get? id = none := by
      cases hrow : s.characters.get? id with
      | none => rfl
      | some row =>
        have hne := List.find?_eq_none.1 hf (id, row) (mem_ranked.2 hrow)
        simp at hne
    rw [character?, hnone]
    rfl
  | some e =>
    have he : e.1 = id := by simpa using List.find?_some hf
    rw [Option.bind_some, he]

/-! The readers of a sound store succeed. -/

theorem Sound.settings_ok {s : Store} (h : s.Sound) : ∃ v, s.settings? = .ok v := by
  rw [settings?]
  cases ht : s.settings.get? settingsKey with
  | none => exact ⟨.initial, rfl⟩
  | some text =>
    obtain ⟨v, hv, rfl⟩ := h.settings text ht
    exact ⟨v, by simp [Settings.read?_write hv]⟩

theorem readColor_toHex (c : Color) : readColor c.toHex = .ok c := by
  rw [readColor, Color.ofHex_toHex]

theorem readTag_of_color {id : Int} {row : TagRow} {c : Color} (h : row.color = c.toHex) :
    readTag id row = .ok ⟨id, row.name, c⟩ := by
  rw [readTag, h, readColor_toHex]
  rfl

theorem Sound.tag_ok {s : Store} (h : s.Sound) {id : Int} {row : TagRow}
    (hrow : s.tags.get? id = some row) : ∃ t, readTag id row = .ok t := by
  obtain ⟨c, hc⟩ := h.tags id row hrow
  exact ⟨_, readTag_of_color hc⟩

theorem Sound.allTags_ok {s : Store} (h : s.Sound) : ∃ ts, s.allTags = .ok ts := by
  refine exists_mapM_eq_ok fun e he => ?_
  have hrow : s.tags.get? e.1 = some e.2 :=
    Table.mem_toList.1 ((Text.sortByName_perm _ _).mem_iff.1 he)
  exact exists_return_ok (h.tag_ok hrow) _

theorem Sound.allLinkedTags_ok {s : Store} (h : s.Sound) : ∃ ls, s.allLinkedTags = .ok ls := by
  refine exists_mapM_eq_ok fun e he => ?_
  obtain ⟨l, -, hl⟩ := List.mem_filterMap.1 he
  obtain ⟨row, hrow, rfl⟩ := Option.map_eq_some_iff.1 hl
  exact exists_return_ok (h.tag_ok hrow) _

theorem Sound.role_ok {s : Store} (h : s.Sound) {id : Int} {row : RoleRow}
    (hrow : s.roles.get? id = some row) : ∃ r, readRole id row = .ok r := by
  obtain ⟨⟨op, hop⟩, ⟨c, hc⟩, -⟩ := h.roles id row hrow
  refine ⟨⟨⟨row.name, row.label, op, c⟩, id⟩, ?_⟩
  rw [readRole, readOperator, hop, Operator.ofName?_name, hc, readColor_toHex]
  rfl

theorem Sound.allRoles_ok {s : Store} (h : s.Sound) : ∃ rs, s.allRoles = .ok rs := by
  obtain ⟨ls, hls⟩ := h.allLinkedTags_ok
  rw [allRoles, hls]
  refine exists_mapM_eq_ok fun e he => ?_
  have hrow : s.roles.get? e.1 = some e.2 :=
    Table.mem_toList.1 ((Text.sortByName_perm _ _).mem_iff.1 he)
  exact exists_return_ok (h.role_ok hrow) _

/-! Reading back a tag -/

theorem filter_allTagSkills (s : Store) (id : Int) :
    s.allTagSkills.filter (fun k => k.tagId = id) =
      ((s.tags.get? id).map (requirementsOf id)).getD [] := by
  have hkey (e : Int × TagRow) (k : TagSkill) (hk : k ∈ requirementsOf e.1 e.2) : k.tagId = e.1 := by
    obtain ⟨p, -, rfl⟩ := List.mem_map.1 hk
    rfl
  exact Table.filter_flatMap_toList _ _ _ hkey id

theorem readTag_id {id : Int} {row : TagRow} {t : Tag} (h : readTag id row = .ok t) : t.id = id := by
  rw [readTag] at h
  cases hc : readColor row.color with
  | error e =>
    rw [hc] at h
    cases h
  | ok c =>
    rw [hc] at h
    cases h
    rfl

theorem readRole_id {id : Int} {row : RoleRow} {r : Role} (h : readRole id row = .ok r) :
    r.id = id := by
  rw [readRole] at h
  cases hop : readOperator row.operator with
  | error e =>
    rw [hop] at h
    cases h
  | ok op =>
    cases hc : readColor row.color with
    | error e =>
      rw [hop, hc] at h
      cases h
    | ok c =>
      rw [hop, hc] at h
      cases h
      rfl

theorem mem_allTags {s : Store} {ts : List TagData} (h : s.allTags = .ok ts) {t : TagData} :
    t ∈ ts ↔ ∃ row, s.tags.get? t.tag.id = some row ∧ readTag t.tag.id row = .ok t.tag ∧
      t.skills = requirementsOf t.tag.id row := by
  have hskills {id : Int} {row : TagRow} (hrow : s.tags.get? id = some row) :
      ((Table.group (·.tagId) s.allTagSkills).get? id).getD [] = requirementsOf id row := by
    rw [Table.getD_get?_group, filter_allTagSkills, hrow]
    rfl
  rw [mem_of_mapM_eq_ok h]
  constructor
  · rintro ⟨⟨id, row⟩, he, ht⟩
    have hrow : s.tags.get? id = some row :=
      Table.mem_toList.1 ((Text.sortByName_perm _ _).mem_iff.1 he)
    dsimp only at ht
    rw [hskills hrow] at ht
    cases htag : readTag id row with
    | error e =>
      rw [htag] at ht
      cases ht
    | ok tag =>
      rw [htag] at ht
      cases ht
      cases readTag_id htag
      exact ⟨row, hrow, htag, rfl⟩
  · rintro ⟨row, hrow, htag, hsk⟩
    refine ⟨(t.tag.id, row), (Text.sortByName_perm _ _).mem_iff.2 (Table.mem_toList.2 hrow), ?_⟩
    dsimp only
    rw [hskills hrow, htag, ← hsk]
    rfl

theorem Sound.eq_of_mem_allTags {s : Store} (h : s.Sound) {ts : List TagData} (hts : s.allTags = .ok ts)
    {id : Int} {row : TagRow} (hrow : s.tags.get? id = some row) :
    ∃ t : TagData, (∀ u, u ∈ ts ∧ u.tag.id = id ↔ u = t) ∧ t.tag.id = id ∧
      t.skills = requirementsOf t.tag.id row := by
  obtain ⟨tag, htag⟩ := h.tag_ok hrow
  have hid := readTag_id htag
  refine ⟨⟨tag, requirementsOf id row⟩, fun u => ?_, hid, by rw [hid]⟩
  rw [mem_allTags hts]
  constructor
  · rintro ⟨⟨row', hrow', htag', hskills⟩, rfl⟩
    cases hrow.symm.trans hrow'
    cases htag.symm.trans htag'
    rw [← hskills]
  · rintro rfl
    exact ⟨⟨row, by rw [hid, hrow], by rw [hid, htag], by rw [hid]⟩, hid⟩

theorem mem_requirementsOf {id : Int} {row : TagRow} {k : TagSkill} :
    k ∈ requirementsOf id row ↔ k.tagId = id ∧ row.requirements.get? k.skillId = some k.level := by
  rw [requirementsOf, List.mem_map, ← Table.mem_toList]
  constructor
  · rintro ⟨p, hp, rfl⟩
    exact ⟨rfl, hp⟩
  · rintro ⟨rfl, hk⟩
    exact ⟨_, hk, rfl⟩

theorem ascending_requirementsOf (id : Int) (row : TagRow) :
    (requirementsOf id row).Pairwise fun a b => a.skillId < b.skillId := by
  refine List.pairwise_map.2 (row.requirements.ascending.imp fun hab => ?_)
  exact compare_lt_iff_lt.1 hab

theorem mem_allTagSkills {s : Store} {k : TagSkill} :
    k ∈ s.allTagSkills ↔
      ∃ row, s.tags.get? k.tagId = some row ∧ row.requirements.get? k.skillId = some k.level := by
  rw [allTagSkills, List.mem_flatMap]
  constructor
  · rintro ⟨⟨i, row⟩, he, hk⟩
    obtain ⟨rfl, hlevel⟩ := mem_requirementsOf.1 hk
    exact ⟨row, Table.mem_toList.1 he, hlevel⟩
  · rintro ⟨row, hrow, hlevel⟩
    exact ⟨(k.tagId, row), Table.mem_toList.2 hrow, mem_requirementsOf.2 ⟨rfl, hlevel⟩⟩

/-! Links -/

theorem mem_ordered {row : RoleRow} {e : Int × Int} :
    e ∈ RoleRow.ordered row ↔ row.links.get? e.1 = some e.2 :=
  (List.mergeSort_perm _ _).mem_iff.trans Table.mem_toList

theorem mem_allRoleTags {s : Store} {l : RoleTag} :
    l ∈ s.allRoleTags ↔
      ∃ row, s.roles.get? l.roleId = some row ∧ row.links.get? l.tagId = some l.position := by
  rw [allRoleTags, List.mem_flatMap]
  constructor
  · rintro ⟨⟨i, row⟩, he, hl⟩
    obtain ⟨p, hp, rfl⟩ := List.mem_map.1 hl
    exact ⟨row, Table.mem_toList.1 he, mem_ordered.1 hp⟩
  · rintro ⟨row, hrow, hlink⟩
    have hp := mem_ordered (e := (l.tagId, l.position)).2 hlink
    exact ⟨(l.roleId, row), Table.mem_toList.2 hrow, List.mem_map.2 ⟨_, hp, rfl⟩⟩

/-! Levels -/

def trained (s : Store) (id skill : Int) : Int := ((s.skillTable id).get? skill).getD 0

theorem character?_of_mem_roster {s : Store} {c : CharacterData} (h : c ∈ s.roster) :
    s.character? c.character.id = some c := by
  rw [roster_eq, List.mem_filterMap] at h
  obtain ⟨e, -, hc⟩ := h
  rwa [character?_id hc]

theorem level_levels {s : Store} {id : Int} {c : CharacterData} (h : s.character? id = some c)
    (skill : Int) : c.levels.level skill = s.trained id skill := by
  obtain ⟨c, -, rfl⟩ := Option.map_eq_some_iff.1 h
  have hl : (s.skillsOf id).map (fun k => (k.skillId, k.level)) = (s.skillTable id).toList := by
    rw [skillsOf, List.map_map]
    exact List.map_id _
  rw [SkillLevels.level, CharacterData.levels, hl, Table.get?_ofList_toList, trained]

end Store

end Muster
