import Mathlib.Data.List.Nodup
import Muster.Proofs.RoleMatching

/-! Who is shown under a filter: the characters that match every tag and every role that is selected, as the
results that come with the answer tell. -/

namespace Muster

/-- Every selected id is that of a listed tag, or of a listed role, which the levels match. -/
structure Filter.MetBy (f : Filter) (levels : SkillLevels) (tags : List TagData) (roles : List RoleData) :
    Prop where
  everyTag : ∀ id ∈ f.tagIds, ∃ t ∈ tags, t.tag.id = id ∧ t.MetBy levels
  everyRole : ∀ id ∈ f.roleIds, ∃ r ∈ roles, r.role.id = id ∧ (Matching.role levels r tags).holds = true

def Filter.Within (f g : Filter) : Prop := f.tagIds ⊆ g.tagIds ∧ f.roleIds ⊆ g.roleIds

instance (f g : Filter) : Decidable (f.Within g) :=
  inferInstanceAs (Decidable (f.tagIds ⊆ g.tagIds ∧ f.roleIds ⊆ g.roleIds))

/-- The listed tags that a role refers to, in its order, each with what some results say of it. -/
def RoleData.told (r : RoleData) (tags : List TagData) (results : List (Int × TagMatch)) :
    List (Tag × Bool) :=
  r.tagIds.filterMap fun id =>
    (tags.find? fun t => t.tag.id = id).bind fun t =>
      (results.find? fun x => x.1 = id).map fun x => (t.tag, x.2.holds)

def Operator.weigh : Operator → List (Tag × Bool) → RoleMatch
  | .all, ts => ⟨ts.all (·.2), (ts.filter (!·.2)).map (·.1)⟩
  | .any, ts => if ts.any (·.2) then ⟨true, []⟩ else ⟨false, ts.map (·.1)⟩
  | .none, ts => ⟨ts.all (!·.2), (ts.filter (·.2)).map (·.1)⟩

theorem Filter.MetBy.within {f g : Filter} {levels : SkillLevels} {tags : List TagData}
    {roles : List RoleData} (h : g.MetBy levels tags roles) (hw : f.Within g) :
    f.MetBy levels tags roles where
  everyTag id hid := h.everyTag id (hw.1 hid)
  everyRole id hid := h.everyRole id (hw.2 hid)

theorem Operator.judge_eq_weigh (op : Operator) (levels : SkillLevels) (ts : List TagData) :
    op.judge levels ts = op.weigh (ts.map fun t => (t.tag, decide (t.MetBy levels))) := by
  cases op with
  | all => simp [judge, weigh, List.all_eq, List.filter_map, Function.comp_def]
  | any => simp [judge, weigh, Function.comp_def]
  | none => simp [judge, weigh, List.all_eq, List.filter_map, Function.comp_def]

section

variable {tags tags' : List TagData} {id : Int} {t : TagData}

theorem mem_of_lastKnown (h : lastKnown tags id = some t) : t ∈ tags ∧ t.tag.id = id := by
  rw [lastKnown] at h
  exact ⟨List.mem_reverse.1 (List.mem_of_find?_eq_some h), by simpa using List.find?_some h⟩

theorem lastKnown_eq_some_iff (hn : (tags.map (·.tag.id)).Nodup) :
    lastKnown tags id = some t ↔ t ∈ tags ∧ t.tag.id = id := by
  refine ⟨mem_of_lastKnown, ?_⟩
  rintro ⟨ht, hid⟩
  have hsome : (lastKnown tags id).isSome = true := by
    rw [Matching.isSome_lastKnown]
    exact List.any_eq_true.2 ⟨t, ht, decide_eq_true hid⟩
  obtain ⟨u, hu⟩ := Option.isSome_iff_exists.1 hsome
  obtain ⟨hmem, huid⟩ := mem_of_lastKnown hu
  rw [hu, List.inj_on_of_nodup_map hn hmem ht (huid.trans hid.symm)]

theorem lastKnown_perm (hp : tags.Perm tags') (hn : (tags.map (·.tag.id)).Nodup) (id : Int) :
    lastKnown tags' id = lastKnown tags id := by
  have hn' : (tags'.map (·.tag.id)).Nodup := (hp.map _).nodup_iff.1 hn
  ext t
  rw [lastKnown_eq_some_iff hn, lastKnown_eq_some_iff hn', hp.mem_iff]

theorem find?_eq_lastKnown (hn : (tags.map (·.tag.id)).Nodup) (id : Int) :
    (tags.find? fun t => t.tag.id = id) = lastKnown tags id := by
  have h := lastKnown_perm tags.reverse_perm.symm hn id
  rwa [lastKnown, List.reverse_reverse] at h

end

namespace Matching

variable {tags tags' : List TagData} {roles roles' : List RoleData} {f g : Filter}

theorem role_perm (levels : SkillLevels) (r : RoleData) (hp : tags.Perm tags')
    (hn : (tags.map (·.tag.id)).Nodup) : role levels r tags' = role levels r tags := by
  rw [role_eq_judge, role_eq_judge, RoleData.resolved, RoleData.resolved,
    funext (lastKnown_perm hp hn)]

/-- The results of the tags tell of the references of a role what the levels do. -/
theorem told_results (hn : (tags.map (·.tag.id)).Nodup) (levels : SkillLevels) (r : RoleData) :
    r.told tags (tags.map fun t => (t.tag.id, tag levels t)) =
      (r.resolved tags).map fun t => (t.tag, decide (t.MetBy levels)) := by
  rw [RoleData.told, RoleData.resolved, List.map_filterMap]
  congr 1
  funext id
  rw [List.find?_map]
  simp only [Function.comp_def]
  rw [find?_eq_lastKnown hn]
  cases lastKnown tags id with
  | none => rfl
  | some t => simp [holds_tag]

theorem visible_iff (c : CharacterData) (tags : List TagData) (roles : List RoleData) (f : Filter) :
    (character c tags roles f).visible = true ↔ f.MetBy c.levels tags roles := by
  have hvisible : (character c tags roles f).visible = true ↔
      (∀ id ∈ f.tagIds, ∃ t ∈ tags, t.tag.id = id ∧ t.MetBy c.levels) ∧
        ∀ id ∈ f.roleIds, ∃ r ∈ roles, r.role.id = id ∧ (role c.levels r tags).holds = true := by
    simp [character, Filter.admits, holds_tag]
  rw [hvisible]
  exact ⟨fun h => ⟨h.1, h.2⟩, fun h => ⟨h.1, h.2⟩⟩

theorem metBy_perm {levels : SkillLevels} (h : f.MetBy levels tags roles) (ht : tags.Perm tags')
    (hr : roles.Perm roles') (hn : (tags.map (·.tag.id)).Nodup) : f.MetBy levels tags' roles' where
  everyTag id hid := by
    obtain ⟨t, hmem, ht'⟩ := h.everyTag id hid
    exact ⟨t, ht.mem_iff.1 hmem, ht'⟩
  everyRole id hid := by
    obtain ⟨r, hmem, hid', hholds⟩ := h.everyRole id hid
    refine ⟨r, hr.mem_iff.1 hmem, hid', ?_⟩
    rwa [role_perm levels r ht hn]

/-- A character is shown exactly when it matches all that is selected, however that is ordered and repeated;
and who is hidden stays hidden when more is selected. When no tag id comes twice, the results of the roles
follow from those of the tags in the same answer, and the order of the tags and the roles does not matter. -/
theorem selection_settles_visibility (c : CharacterData) (tags : List TagData) (roles : List RoleData)
    (f : Filter) :
    ((character c tags roles f).visible = true ↔ f.MetBy c.levels tags roles) ∧
    ((tags.map (·.tag.id)).Nodup →
      (character c tags roles f).roles = (roles.map fun r =>
        (r.role.id, r.role.operator.weigh (r.told tags (character c tags roles f).tags))) ∧
      ∀ tags' roles', tags.Perm tags' → roles.Perm roles' →
        (character c tags' roles' f).visible = (character c tags roles f).visible) ∧
    ∀ g : Filter, f.Within g →
      ((character c tags roles f).visible = false → (character c tags roles g).visible = false) ∧
      (g.Within f → (character c tags roles g).visible = (character c tags roles f).visible) := by
  have hgrow {f g : Filter} (hw : f.Within g) (hg : (character c tags roles g).visible = true) :
      (character c tags roles f).visible = true :=
    (visible_iff c tags roles f).2 (((visible_iff c tags roles g).1 hg).within hw)
  refine ⟨visible_iff c tags roles f, fun hn => ⟨?_, fun tags' roles' ht hr => ?_⟩, fun g hw =>
    ⟨fun hf => ?_, fun hw' => ?_⟩⟩
  · refine List.map_congr_left fun r _ => ?_
    have htold : r.told tags (character c tags roles f).tags =
        (r.resolved tags).map fun t => (t.tag, decide (t.MetBy c.levels)) := told_results hn c.levels r
    rw [htold, ← Operator.judge_eq_weigh, ← role_eq_judge]
  · have hn' : (tags'.map (·.tag.id)).Nodup := (ht.map _).nodup_iff.1 hn
    rw [Bool.eq_iff_iff, visible_iff, visible_iff]
    exact ⟨fun h => metBy_perm h ht.symm hr.symm hn', fun h => metBy_perm h ht hr hn⟩
  · exact Bool.eq_false_iff.2 fun hg => Bool.eq_false_iff.1 hf (hgrow hw hg)
  · exact Bool.eq_iff_iff.2 ⟨hgrow hw, hgrow hw'⟩

def guns : TagData := ⟨⟨1, "Guns", .rgb 255 0 0⟩, [⟨1, 3300, 4⟩]⟩

def drills : TagData := ⟨⟨2, "Drills", .rgb 0 255 0⟩, [⟨2, 3386, 1⟩]⟩

def posts : List RoleData :=
  [⟨⟨⟨"Fighter", "F", .all, .rgb 1 1 1⟩, 10⟩, [guns.tag, drills.tag]⟩,
    ⟨⟨⟨"Hand", "H", .any, .rgb 2 2 2⟩, 11⟩, [⟨9, "Gone", .rgb 9 9 9⟩, drills.tag, guns.tag]⟩,
    ⟨⟨⟨"Idler", "I", .none, .rgb 3 3 3⟩, 12⟩, [drills.tag]⟩]

def marksman : CharacterData :=
  ⟨⟨7, "Mara", "", 1⟩, ⟨1, none, "Perkone", "PERK", ""⟩, none, [⟨7, 3300, 4⟩]⟩

theorem marksman_is_shown_by_guns :
    ([guns, drills].map (·.tag.id)).Nodup ∧
    (character marksman [guns, drills] posts ⟨[1], [11, 12]⟩).visible = true ∧
    (character marksman [guns, drills] posts ⟨[1], [11, 12]⟩).roles =
      [(10, ⟨false, [drills.tag]⟩), (11, ⟨true, []⟩), (12, ⟨true, []⟩)] ∧
    (character marksman [drills, guns] posts.reverse ⟨[1], [11, 12]⟩).visible = true ∧
    (character marksman [guns, drills] posts ⟨[1, 1], [12, 11, 12]⟩).visible = true ∧
    (character marksman [guns, drills] posts ⟨[1, 2], [11, 12]⟩).visible = false ∧
    (character marksman [guns, drills] posts ⟨[1, 2], [11, 12, 10]⟩).visible = false := by
  have hn : ([guns, drills].map (·.tag.id)).Nodup := by decide
  obtain ⟨-, hlisted, hsame⟩ :=
    selection_settles_visibility marksman [guns, drills] posts ⟨[1], [11, 12]⟩
  obtain ⟨-, -, hmore⟩ :=
    selection_settles_visibility marksman [guns, drills] posts ⟨[1, 2], [11, 12]⟩
  obtain ⟨hroles, horder⟩ := hlisted hn
  have hshown : (character marksman [guns, drills] posts ⟨[1], [11, 12]⟩).visible = true := by decide
  have hhidden : (character marksman [guns, drills] posts ⟨[1, 2], [11, 12]⟩).visible = false := by decide
  refine ⟨hn, hshown, hroles, ?_, ?_, hhidden, ?_⟩
  · exact (horder _ _ (.swap _ _ _) posts.reverse_perm.symm).trans hshown
  · exact ((hsame ⟨[1, 1], [12, 11, 12]⟩ (by decide)).2 (by decide)).trans hshown
  · exact (hmore ⟨[1, 2], [11, 12, 10]⟩ (by decide)).1 hhidden

end Matching

end Muster
