import Muster.Proofs.SkillText
import Muster.Proofs.Visibility

/-! What more training does for matches, and the least training with which a tag matches. -/

namespace Muster

namespace SkillLevels

variable {levels more raised : SkillLevels} {plan : List TagSkill}

/-- No skill has a higher level in the first table; a skill that is missing has the level zero. -/
def AtMost (levels more : SkillLevels) : Prop := ∀ skill, levels.level skill ≤ more.level skill

theorem level_of_not_mem {skill : Int} (h : skill ∉ levels.keys) : levels.level skill = 0 := by
  rw [Table.mem_keys, Table.contains, Bool.not_eq_true, Option.isSome_eq_false_iff,
    Option.isNone_iff_eq_none] at h
  rw [level, h]
  rfl

theorem atMost_iff : levels.AtMost more ↔
    ∀ skill ∈ levels.keys ++ more.keys, levels.level skill ≤ more.level skill := by
  refine ⟨fun h skill _ => h skill, fun h skill => ?_⟩
  by_cases hskill : skill ∈ levels.keys ++ more.keys
  · exact h skill hskill
  · rw [List.mem_append, not_or] at hskill
    rw [level_of_not_mem hskill.1, level_of_not_mem hskill.2]

instance (levels more : SkillLevels) : Decidable (levels.AtMost more) := decidable_of_iff _ atMost_iff.symm

/-- Each skill of a plan is raised to the highest level that the plan asks of it, and no other changes. -/
structure Raises (levels : SkillLevels) (plan : List TagSkill) (raised : SkillLevels) : Prop where
  asked : ∀ r ∈ plan,
    IsGreatest {l | ∃ k ∈ plan, k.skillId = r.skillId ∧ k.level = l} (raised.level r.skillId)
  others : ∀ skill, (∀ r ∈ plan, r.skillId ≠ skill) → raised.get? skill = levels.get? skill

def highest (plan : List TagSkill) : Table Int Int :=
  (plan.map fun r => ⟨r.skillId, r.level⟩).foldl SkillList.raise .empty

def trained (levels : SkillLevels) (plan : List TagSkill) : SkillLevels :=
  (highest plan).toList.foldl (fun t e => t.insert e.1 e.2) levels

theorem highest_get? (plan : List TagSkill) (skill : Int) :
    SkillList.Highest ((highest plan).get? skill) {l | ∃ k ∈ plan, k.skillId = skill ∧ k.level = l} := by
  have hempty (k : Int) : SkillList.Highest ((Table.empty : Table Int Int).get? k) ∅ := rfl
  have h := SkillList.highest_foldl_raise (plan.map fun r => ⟨r.skillId, r.level⟩) hempty skill
  simpa [highest] using h

theorem get?_trained (levels : SkillLevels) (plan : List TagSkill) (skill : Int) :
    (levels.trained plan).get? skill = ((highest plan).get? skill).or (levels.get? skill) := by
  rw [trained, Table.get?_foldl_insert, Table.get?_ofList_toList]

theorem raises_trained (levels : SkillLevels) (plan : List TagSkill) :
    levels.Raises plan (levels.trained plan) where
  asked r hr := by
    have h := highest_get? plan r.skillId
    rw [level, get?_trained]
    cases hget : (highest plan).get? r.skillId with
    | none =>
      rw [hget] at h
      exact absurd ⟨r, hr, rfl, rfl⟩ (Set.eq_empty_iff_forall_notMem.1 h r.level)
    | some l =>
      rw [hget] at h
      exact h
  others skill hskill := by
    have h := highest_get? plan skill
    rw [get?_trained]
    cases hget : (highest plan).get? skill with
    | none => rfl
    | some l =>
      rw [hget] at h
      obtain ⟨⟨k, hk, hid, -⟩, -⟩ := h
      exact absurd hid (hskill k hk)

theorem Raises.reaches_iff (h : levels.Raises plan raised) :
    (∀ r ∈ plan, raised.level r.skillId ≤ more.level r.skillId) ↔
      ∀ r ∈ plan, r.level ≤ more.level r.skillId := by
  constructor
  · intro hreach r hr
    exact ((h.asked r hr).2 ⟨r, hr, rfl, rfl⟩).trans (hreach r hr)
  · intro hreach r hr
    obtain ⟨k, hk, hid, hlevel⟩ := (h.asked r hr).1
    rw [← hlevel, ← hid]
    exact hreach k hk

theorem Raises.atMost (h : levels.Raises plan raised)
    (hplan : ∀ r ∈ plan, levels.level r.skillId < r.level) : levels.AtMost raised := by
  intro skill
  by_cases hskill : ∃ r ∈ plan, r.skillId = skill
  · obtain ⟨r, hr, rfl⟩ := hskill
    exact (hplan r hr).le.trans ((h.asked r hr).2 ⟨r, hr, rfl, rfl⟩)
  · have hsame := h.others skill fun r hr hid => hskill ⟨r, hr, hid⟩
    rw [level, level, hsame]

end SkillLevels

section

variable {levels more : SkillLevels} {t : TagData}

theorem TagData.MetBy.mono (h : t.MetBy levels) (hmore : levels.AtMost more) : t.MetBy more :=
  fun r hr => (h r hr).trans (hmore r.skillId)

theorem SkillLevels.AtMost.metBy_iff (h : levels.AtMost more) :
    t.MetBy more ↔ ∀ r ∈ Matching.missing levels t, r.level ≤ more.level r.skillId := by
  constructor
  · intro hmet r hr
    exact hmet r (List.mem_of_mem_filter hr)
  · intro hmissing r hr
    by_cases hlevel : levels.level r.skillId < r.level
    · exact hmissing r (List.mem_filter.2 ⟨hr, decide_eq_true hlevel⟩)
    · exact (not_lt.1 hlevel).trans (h r.skillId)

end

namespace Matching

variable {levels more : SkillLevels} {tags : List TagData} {roles : List RoleData} {f : Filter}

theorem missing_sublist (h : levels.AtMost more) (t : TagData) :
    (missing more t).Sublist (missing levels t) := by
  refine List.monotone_filter_right t.skills fun r hr => ?_
  simp only [decide_eq_true_eq] at hr ⊢
  exact (h r.skillId).trans_lt hr

theorem judge_mono (h : levels.AtMost more) {op : Operator} (hop : op ≠ .none) {ts : List TagData}
    (hold : (op.judge levels ts).holds = true) : (op.judge more ts).holds = true := by
  cases op with
  | all =>
    simp only [Operator.judge, decide_eq_true_eq] at hold ⊢
    exact fun t ht => (hold t ht).mono h
  | any =>
    rw [holds_judge_any, decide_eq_true_eq] at hold ⊢
    obtain ⟨t, ht, hmet⟩ := hold
    exact ⟨t, ht, hmet.mono h⟩
  | none => exact absurd rfl hop

theorem judge_none_anti (h : levels.AtMost more) {ts : List TagData}
    (hold : (Operator.none.judge more ts).holds = true) : (Operator.none.judge levels ts).holds = true := by
  rw [judge_none_eq_not_any, Bool.not_eq_true'] at hold ⊢
  exact Bool.eq_false_iff.2 fun hany => Bool.eq_false_iff.1 hold (judge_mono h (by decide) hany)

theorem role_mono (h : levels.AtMost more) {r : RoleData} (hop : r.role.operator ≠ .none)
    (hold : (role levels r tags).holds = true) : (role more r tags).holds = true := by
  rw [role_eq_judge] at hold ⊢
  exact judge_mono h hop hold

theorem role_anti (h : levels.AtMost more) {r : RoleData} (hop : r.role.operator = .none)
    (hold : (role more r tags).holds = true) : (role levels r tags).holds = true := by
  rw [role_eq_judge, hop] at hold ⊢
  exact judge_none_anti h hold

theorem filter_mono (h : levels.AtMost more)
    (hroles : ∀ r ∈ roles, r.role.id ∈ f.roleIds → r.role.operator ≠ .none)
    (hf : f.MetBy levels tags roles) : f.MetBy more tags roles where
  everyTag id hid := by
    obtain ⟨t, ht, htid, hmet⟩ := hf.everyTag id hid
    exact ⟨t, ht, htid, hmet.mono h⟩
  everyRole id hid := by
    obtain ⟨r, hr, hrid, hold⟩ := hf.everyRole id hid
    exact ⟨r, hr, hrid, role_mono h (hroles r hr (hrid ▸ hid)) hold⟩

/-- More training keeps all that matches, but for roles that ask for no match: those match with less. So a
character that is shown stays shown, unless such a role is selected. -/
theorem training_keeps_matches (h : levels.AtMost more) (tags : List TagData) :
    (∀ t : TagData, ((tag levels t).holds = true → (tag more t).holds = true) ∧
      (tag more t).missing.Sublist (tag levels t).missing) ∧
    (∀ r : RoleData,
      (r.role.operator ≠ .none → (role levels r tags).holds = true → (role more r tags).holds = true) ∧
      (r.role.operator = .none → (role more r tags).holds = true → (role levels r tags).holds = true)) ∧
    ∀ (c c' : CharacterData) (roles : List RoleData) (f : Filter), c.levels = levels → c'.levels = more →
      (∀ r ∈ roles, r.role.id ∈ f.roleIds → r.role.operator ≠ .none) →
      (character c tags roles f).visible = true → (character c' tags roles f).visible = true := by
  refine ⟨fun t => ⟨fun hold => ?_, missing_sublist h t⟩, fun r => ⟨role_mono h, role_anti h⟩, ?_⟩
  · rw [holds_tag, decide_eq_true_eq] at hold ⊢
    exact hold.mono h
  · rintro c c' roles f rfl rfl hroles hshown
    rw [visible_iff] at hshown ⊢
    exact filter_mono h hroles hshown

def veteran : CharacterData :=
  { marksman with skills := [⟨7, 3300, 5⟩, ⟨7, 3386, 1⟩] }

def crewman : RoleData :=
  ⟨⟨⟨"Crewman", "C", .none, .rgb 4 4 4⟩, 13⟩, [⟨3, "Capitals", .rgb 0 0 0⟩]⟩

theorem veteran_keeps_matches :
    let capitals : TagData := ⟨⟨3, "Capitals", .rgb 0 0 0⟩, [⟨3, 3300, 5⟩, ⟨3, 3400, 1⟩]⟩
    let tags := [guns, drills, capitals]
    marksman.levels.AtMost veteran.levels ∧
    (tag veteran.levels guns).holds = true ∧
    (tag veteran.levels capitals).missing.Sublist (tag marksman.levels capitals).missing ∧
    (∀ r ∈ posts, r.role.operator ≠ .none → (role marksman.levels r tags).holds = true →
      (role veteran.levels r tags).holds = true) ∧
    (role marksman.levels crewman tags).holds = true ∧
    (character veteran tags posts ⟨[1], [11]⟩).visible = true := by
  intro capitals tags
  have h : marksman.levels.AtMost veteran.levels := by decide
  obtain ⟨htags, hroles, hshown⟩ := training_keeps_matches h tags
  refine ⟨h, (htags guns).1 (by decide), (htags capitals).2, fun r _ => (hroles r).1, ?_, ?_⟩
  · exact (hroles crewman).2 rfl (by decide)
  · exact hshown marksman veteran posts ⟨[1], [11]⟩ rfl rfl (by decide) (by decide)

/-- What is missing for a tag is the least training with which the tag matches. -/
theorem missing_is_the_least_training (levels : SkillLevels) (t : TagData) :
    ((tag levels t).holds = true ↔ (tag levels t).missing = []) ∧
    levels.Raises (tag levels t).missing (levels.trained (tag levels t).missing) ∧
    ∀ raised, levels.Raises (tag levels t).missing raised →
      (tag raised t).holds = true ∧
      ∀ more, levels.AtMost more →
        ((tag more t).holds = true ↔
          ∀ r ∈ (tag levels t).missing, raised.level r.skillId ≤ more.level r.skillId) := by
  have hmissing : ∀ r ∈ (tag levels t).missing, levels.level r.skillId < r.level :=
    fun r hr => of_decide_eq_true (List.mem_filter.1 hr).2
  refine ⟨List.isEmpty_iff, levels.raises_trained _, fun raised hraised => ?_⟩
  have hiff (more : SkillLevels) (hmore : levels.AtMost more) :
      (tag more t).holds = true ↔
        ∀ r ∈ (tag levels t).missing, raised.level r.skillId ≤ more.level r.skillId := by
    rw [holds_tag, decide_eq_true_eq, hmore.metBy_iff, hraised.reaches_iff]
    rfl
  exact ⟨(hiff raised (hraised.atMost hmissing)).2 fun _ _ => le_rfl, hiff⟩

def hunting : TagData :=
  ⟨⟨4, "Hunting", .rgb 5 5 5⟩, [⟨4, 3300, 4⟩, ⟨4, 3386, 0⟩, ⟨4, 3300, 5⟩, ⟨4, 3387, -1⟩]⟩

theorem hunting_is_trained_for :
    let levels : SkillLevels := .ofList [(3300, 2), (3387, -3), (3400, 1)]
    let raised : SkillLevels := .ofList [(3300, 5), (3387, -1), (3400, 1)]
    (tag levels hunting).holds = false ∧
    (tag levels hunting).missing = [⟨4, 3300, 4⟩, ⟨4, 3300, 5⟩, ⟨4, 3387, -1⟩] ∧
    levels.Raises (tag levels hunting).missing raised ∧ (tag raised hunting).holds = true ∧
    (tag (.ofList [(3300, 4), (3400, 1)]) hunting).holds = false := by
  intro levels raised
  obtain ⟨hempty, hraises, hleast⟩ := missing_is_the_least_training levels hunting
  have hraised : levels.trained (tag levels hunting).missing = raised := by decide
  rw [hraised] at hraises
  obtain ⟨hmatch, hmore⟩ := hleast raised hraises
  have hshort := not_congr (hmore (.ofList [(3300, 4), (3400, 1)]) (by decide))
  refine ⟨Bool.eq_false_iff.2 fun h => ?_, rfl, hraises, hmatch, Bool.eq_false_iff.2 (hshort.2 (by decide))⟩
  exact absurd (hempty.1 h) (by decide)

end Matching

end Muster
