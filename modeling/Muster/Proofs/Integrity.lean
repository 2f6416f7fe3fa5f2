import Muster.Proofs.Overview

/-! In every store that can be reached rows are found under their keys only once, references lead to
rows, and all that is kept as text is read back. -/

namespace Muster

theorem Table.nodup_flatMap_toList {κ β γ : Type} [Ord κ] [Std.LawfulEqOrd κ] (t : Table κ β)
    (f : β → List γ) (h : ∀ v, (f v).Nodup) :
    (t.toList.flatMap fun e => (f e.2).map fun x => (e.1, x)).Nodup := by
  refine List.nodup_flatMap.2 ⟨fun e _ => (h e.2).map fun x y hxy => (Prod.mk.inj hxy).2, ?_⟩
  refine t.ascending.imp fun {a b} hab p hpa hpb => ?_
  obtain ⟨x, -, rfl⟩ := List.mem_map.1 hpa
  obtain ⟨y, -, hy⟩ := List.mem_map.1 hpb
  rw [(Prod.mk.inj hy).1] at hab
  exact not_lt_self _ hab

namespace Store

def allTokens (s : Store) : List (Int × StoredToken) :=
  s.characters.toList.filterMap fun (id, row) => row.token.map fun t => (id, t)

/-- No two rows of a kind have the same primary key. -/
structure Keyed (s : Store) : Prop where
  settings : s.settings.keys.Nodup
  alliances : s.alliances.keys.Nodup
  corporations : s.corporations.keys.Nodup
  characters : s.characters.keys.Nodup
  skills : (s.allSkills.map fun k => (k.characterId, k.skillId)).Nodup
  tokens : (s.allTokens.map (·.1)).Nodup
  tags : s.tags.keys.Nodup
  requirements : (s.allTagSkills.map fun k => (k.tagId, k.skillId)).Nodup
  roles : s.roles.keys.Nodup
  links : (s.allRoleTags.map fun l => (l.roleId, l.tagId)).Nodup
  skillNames : s.skillNames.keys.Nodup

/-- Every reference leads to a row. -/
structure Referring (s : Store) : Prop where
  alliance : ∀ c ∈ s.corporations.toList, ∀ id ∈ c.2.allianceId, s.alliances.contains id = true
  corporation : ∀ c ∈ s.characters.toList, s.corporations.contains c.2.corporationId = true
  skill : ∀ k ∈ s.allSkills, s.characters.contains k.characterId = true
  token : ∀ t ∈ s.allTokens, s.characters.contains t.1 = true
  requirement : ∀ k ∈ s.allTagSkills, s.tags.contains k.tagId = true
  link : ∀ l ∈ s.allRoleTags, s.roles.contains l.roleId = true ∧ s.tags.contains l.tagId = true

/-- What is kept as text is read, and the lists of characters, tags and roles have all their rows. -/
structure Readable (s : Store) : Prop where
  settings : ∃ v, s.settings? = .ok v
  tagColors : ∀ t ∈ s.tags.toList, ∃ c, Color.ofHex t.2.color = .ok c
  roleColors : ∀ r ∈ s.roles.toList, ∃ c, Color.ofHex r.2.color = .ok c
  operators : ∀ r ∈ s.roles.toList, ∃ op, Operator.ofName? r.2.operator = some op
  tags : ∃ ts, s.allTags = .ok ts ∧ (ts.map (·.tag.id)).Perm s.tags.keys
  roles : ∃ rs, s.allRoles = .ok rs ∧ (rs.map (·.role.id)).Perm s.roles.keys
  characters : (s.roster.map (·.character.id)).Perm s.characters.keys
  character : ∀ id, (s.character? id).isSome = s.characters.contains id

theorem mem_allTokens {s : Store} {e : Int × StoredToken} :
    e ∈ s.allTokens ↔ ∃ row, s.characters.get? e.1 = some row ∧ row.token = some e.2 := by
  rw [allTokens, List.mem_filterMap]
  constructor
  · rintro ⟨⟨id, row⟩, hrow, he⟩
    obtain ⟨t, ht, rfl⟩ := Option.map_eq_some_iff.1 he
    exact ⟨row, Table.mem_toList.1 hrow, ht⟩
  · rintro ⟨row, hrow, ht⟩
    exact ⟨(e.1, row), Table.mem_toList.2 hrow, by simp [ht]⟩

/-! Tables have no repeated keys, and rows are owned where they are referred to. -/

theorem nodup_allTokens (s : Store) : (s.allTokens.map (·.1)).Nodup := by
  refine List.pairwise_map.2 (List.pairwise_filterMap.2 (s.characters.ascending.imp ?_))
  rintro ⟨i, _⟩ ⟨j, _⟩ hij a ha b hb heq
  obtain ⟨_, -, rfl⟩ := Option.map_eq_some_iff.1 ha
  obtain ⟨_, -, rfl⟩ := Option.map_eq_some_iff.1 hb
  cases heq
  exact Table.not_lt_self _ hij

theorem nodup_ordered (row : RoleRow) : ((RoleRow.ordered row).map (·.1)).Nodup :=
  ((List.mergeSort_perm _ _).map _).nodup_iff.2 (Table.nodup_keys row.links)

theorem keyed (s : Store) : s.Keyed where
  settings := Table.nodup_keys _
  alliances := Table.nodup_keys _
  corporations := Table.nodup_keys _
  characters := Table.nodup_keys _
  skills := by
    have h := s.characters.nodup_flatMap_toList (fun row => row.skills.keys) fun row =>
      Table.nodup_keys _
    simpa [allSkills, List.map_flatMap, Table.keys, Function.comp_def] using h
  tokens := s.nodup_allTokens
  tags := Table.nodup_keys _
  requirements := by
    have h := s.tags.nodup_flatMap_toList (fun row => row.requirements.keys) fun row =>
      Table.nodup_keys _
    simpa [allTagSkills, requirementsOf, List.map_flatMap, Table.keys, Function.comp_def] using h
  roles := Table.nodup_keys _
  links := by
    have h := s.roles.nodup_flatMap_toList (fun row => (RoleRow.ordered row).map (·.1))
      nodup_ordered
    simpa [allRoleTags, List.map_flatMap, Function.comp_def] using h
  skillNames := Table.nodup_keys _

theorem Sound.referring {s : Store} (h : s.Sound) : s.Referring where
  alliance c hc id hid := h.corporations c.1 c.2 (Table.mem_toList.1 hc) id hid
  corporation c hc := h.characters c.1 c.2 (Table.mem_toList.1 hc)
  skill k hk := by
    obtain ⟨e, he, hk⟩ := List.mem_flatMap.1 hk
    obtain ⟨p, -, rfl⟩ := List.mem_map.1 hk
    exact Table.contains_of_mem_toList he
  token t ht := by
    obtain ⟨row, hrow, -⟩ := mem_allTokens.1 ht
    exact Option.isSome_iff_exists.2 ⟨row, hrow⟩
  requirement k hk := by
    obtain ⟨row, hrow, -⟩ := mem_allTagSkills.1 hk
    exact Option.isSome_iff_exists.2 ⟨row, hrow⟩
  link l hl := by
    obtain ⟨row, hrow, hlink⟩ := mem_allRoleTags.1 hl
    have hthere := (h.roles l.roleId row hrow).2.2
    exact ⟨Option.isSome_iff_exists.2 ⟨row, hrow⟩,
      hthere l.tagId (Option.isSome_iff_exists.2 ⟨l.position, hlink⟩)⟩

/-! The lists of tags and of roles have one entry for each row. -/

theorem map_id_allTags {s : Store} {ts : List TagData} (h : s.allTags = .ok ts) :
    (ts.map (·.tag.id)).Perm s.tags.keys := by
  rw [map_of_mapM_eq_ok (·.1) (fun e t ht => ?_) h]
  · exact (Text.sortByName_perm _ _).map _
  · cases hr : readTag e.1 e.2 with
    | error _ =>
      simp only [hr] at ht
      cases ht
    | ok tag =>
      simp only [hr] at ht
      cases ht
      exact readTag_id hr

theorem map_id_allRoles {s : Store} {rs : List RoleData} (h : s.allRoles = .ok rs) :
    (rs.map (·.role.id)).Perm s.roles.keys := by
  rw [allRoles] at h
  cases hls : s.allLinkedTags with
  | error e =>
    rw [hls] at h
    cases h
  | ok ls =>
    rw [hls] at h
    rw [map_of_mapM_eq_ok (·.1) (fun e r hr => ?_) h]
    · exact (Text.sortByName_perm _ _).map _
    · cases hrole : readRole e.1 e.2 with
      | error _ =>
        simp only [hrole] at hr
        cases hr
      | ok role =>
        simp only [hrole] at hr
        cases hr
        exact readRole_id hrole

theorem Sound.readable {s : Store} (h : s.Sound) : s.Readable where
  settings := h.settings_ok
  tagColors t ht := by
    obtain ⟨c, hc⟩ := h.tags t.1 t.2 (Table.mem_toList.1 ht)
    exact ⟨c, by rw [hc, Color.ofHex_toHex]⟩
  roleColors r hr := by
    obtain ⟨-, ⟨c, hc⟩, -⟩ := h.roles r.1 r.2 (Table.mem_toList.1 hr)
    exact ⟨c, by rw [hc, Color.ofHex_toHex]⟩
  operators r hr := by
    obtain ⟨⟨op, hop⟩, -, -⟩ := h.roles r.1 r.2 (Table.mem_toList.1 hr)
    exact ⟨op, by rw [hop, Operator.ofName?_name]⟩
  tags := by
    obtain ⟨ts, hts⟩ := h.allTags_ok
    exact ⟨ts, hts, map_id_allTags hts⟩
  roles := by
    obtain ⟨rs, hrs⟩ := h.allRoles_ok
    exact ⟨rs, hrs, map_id_allRoles hrs⟩
  characters := by
    rw [h.map_id_roster]
    exact s.ranked_perm.map _
  character := h.isSome_character?

end Store

namespace Database

/-- What any operations, syncs and commands make of a fresh database, whether they fail or not, has rows
with keys of their own, references that lead somewhere, and readable text. -/
theorem reachable_store_is_whole {d : Database} (h : d.Reachable) :
    d.store.Keyed ∧ d.store.Referring ∧ d.store.Readable :=
  ⟨d.store.keyed, h.sound.store.referring, h.sound.store.readable⟩

def crew : Store.Action Unit := do
  App.pair
  Store.putToken ⟨⟨"access", "refresh", "Bearer", ⟨0, 0⟩⟩, 4⟩
  let _ ← Store.makeTag "Gunners" (.rgb 255 0 0) [⟨3300, 4⟩]
  let role ← Store.addRole ⟨"Fleet", "", .any, .rgb 0 0 255⟩
  Store.putRoleTag ⟨role.id, 1, 0⟩
  Store.putSettings ⟨"debug", [1], [1]⟩
  Store.putCorporation ⟨2, some 99, "Lost", "LST", ""⟩

theorem operation_crew : Store.Operation crew := by
  have hfits : Settings.Fits ⟨"debug", [1], [1]⟩ := by
    intro i hi
    obtain rfl : i = 1 := by simpa using hi
    rfl
  exact .next App.operation_pair fun _ => .next (.putToken _) fun _ => .next (.makeTag ..) fun _ =>
    .next (.addRole _) fun _ => .next (.putRoleTag _) fun _ => .next (.putSettings hfits) fun _ =>
      .putCorporation _

theorem refused_crew_is_whole :
    let d := (run crew .fresh).2
    (run crew .fresh).1 = .error (.engine .foreignKey) ∧ d.Reachable ∧
      d.store.allSkills = [⟨4, 3300, 5⟩] ∧ d.store.allTagSkills = [⟨1, 3300, 4⟩] ∧
      (d.store.roles.get? 1).map (·.links.toList) = some [(1, 0)] ∧
      d.store.Keyed ∧ d.store.Referring ∧ d.store.Readable := by
  have hr : (run crew .fresh).2.Reachable := .run .fresh operation_crew
  exact ⟨rfl, hr, rfl, rfl, rfl, reachable_store_is_whole hr⟩

end Database

end Muster
