import Muster.Matching
import Muster.Proofs.Table

/-! What a role asks of a character, said of its tags as a whole and not tag by tag. -/

namespace Muster

def TagData.MetBy (t : TagData) (levels : SkillLevels) : Prop :=
  ∀ r ∈ t.skills, r.level ≤ levels.level r.skillId

instance (t : TagData) (levels : SkillLevels) : Decidable (t.MetBy levels) :=
  inferInstanceAs (Decidable (∀ r ∈ t.skills, r.level ≤ levels.level r.skillId))

def lastKnown (tags : List TagData) (id : Int) : Option TagData :=
  tags.reverse.find? fun t => t.tag.id = id

/-- The known tags that a role refers to, in its order and as often as it does. -/
def RoleData.resolved (r : RoleData) (tags : List TagData) : List TagData :=
  r.tagIds.filterMap (lastKnown tags)

def RoleData.under (r : RoleData) (op : Operator) : RoleData :=
  { r with role := { r.role with operator := op } }

def Operator.judge (op : Operator) (levels : SkillLevels) (ts : List TagData) : RoleMatch :=
  match op with
  | .all => ⟨∀ t ∈ ts, t.MetBy levels, (ts.filter fun t => ¬t.MetBy levels).map (·.tag)⟩
  | .none => ⟨∀ t ∈ ts, ¬t.MetBy levels, (ts.filter fun t => t.MetBy levels).map (·.tag)⟩
  | .any => if ∃ t ∈ ts, t.MetBy levels then ⟨true, []⟩ else ⟨false, ts.map (·.tag)⟩

namespace Matching

variable {levels : SkillLevels}

theorem holds_tag (t : TagData) : (tag levels t).holds = decide (t.MetBy levels) := by
  rw [Bool.eq_iff_iff, decide_eq_true_iff]
  simp [tag, missing, TagData.MetBy, List.isEmpty_iff, List.filter_eq_nil_iff]

theorem get?_known (tags : List TagData) (id : Int) : (known tags).get? id = lastKnown tags id := by
  rw [known, Table.get?_ofList, ← List.map_reverse, List.find?_map, Option.map_map]
  simp [Function.comp_def, lastKnown]

variable {tags : Table Int TagData}

def faults (op : Operator) (levels : SkillLevels) (t : TagData) : Bool :=
  decide (t.MetBy levels) == (op == .none)

/-- A walk that has no early end keeps what counts against the role, after what it kept before. -/
theorem walk_of_ne_any {op : Operator} (h : op ≠ .any) (ids : List Int) (seen : List Tag) :
    walk op levels tags ids seen =
      let kept := seen.reverse ++ ((ids.filterMap tags.get?).filter (faults op levels)).map (·.tag)
      ⟨kept.isEmpty, kept⟩ := by
  induction ids generalizing seen with
  | nil => simp [walk, h]
  | cons id ids ih =>
    cases hk : tags.get? id with
    | none => simp [walk, hk, ih]
    | some t =>
      cases op with
      | any => exact absurd rfl h
      | all => by_cases ht : t.MetBy levels <;> simp [walk, hk, holds_tag, ht, ih, faults]
      | none => by_cases ht : t.MetBy levels <;> simp [walk, hk, holds_tag, ht, ih, faults]

theorem walk_any (ids : List Int) (seen : List Tag) :
    walk .any levels tags ids seen =
      let ts := ids.filterMap tags.get?
      if ts.any fun t => t.MetBy levels then ⟨true, []⟩
      else ⟨false, seen.reverse ++ ts.map (·.tag)⟩ := by
  induction ids generalizing seen with
  | nil => simp [walk]
  | cons id ids ih =>
    cases hk : tags.get? id with
    | none => simp [walk, hk, ih]
    | some t => by_cases ht : t.MetBy levels <;> simp [walk, hk, holds_tag, ht, ih]

theorem isEmpty_filter_map (ts : List TagData) (p : TagData → Bool) :
    ((ts.filter p).map (·.tag)).isEmpty = decide (∀ t ∈ ts, ¬p t) := by
  rw [Bool.eq_iff_iff, List.isEmpty_iff, List.map_eq_nil_iff, List.filter_eq_nil_iff,
    decide_eq_true_iff]

theorem role_eq_judge (levels : SkillLevels) (r : RoleData) (tags : List TagData) :
    role levels r tags = r.role.operator.judge levels (r.resolved tags) := by
  have hr : r.tagIds.filterMap (known tags).get? = r.resolved tags := by
    rw [RoleData.resolved, funext (get?_known tags)]
  rw [role]
  cases r.role.operator with
  | all =>
    have hf : faults .all levels = fun t => decide ¬t.MetBy levels := by
      funext t
      by_cases ht : t.MetBy levels <;> simp [faults, ht]
    rw [walk_of_ne_any (by decide), hr, hf]
    simp only [List.reverse_nil, List.nil_append, isEmpty_filter_map, Operator.judge,
      decide_eq_true_eq, Decidable.not_not]
  | any =>
    rw [walk_any, hr]
    simp [Operator.judge]
  | none =>
    have hf : faults .none levels = fun t => decide (t.MetBy levels) := by
      funext t
      by_cases ht : t.MetBy levels <;> simp [faults, ht]
    rw [walk_of_ne_any (by decide), hr, hf]
    simp only [List.reverse_nil, List.nil_append, isEmpty_filter_map, Operator.judge,
      decide_eq_true_eq]

theorem isSome_lastKnown (tags : List TagData) (id : Int) :
    (lastKnown tags id).isSome = tags.any fun t => t.tag.id = id := by
  rw [lastKnown, Bool.eq_iff_iff, List.find?_isSome]
  simp

theorem resolved_filter (r : RoleData) (tags : List TagData) :
    RoleData.resolved { r with tags := r.tags.filter fun t => tags.any fun u => u.tag.id = t.id } tags =
      r.resolved tags := by
  rw [RoleData.resolved, RoleData.resolved, RoleData.tagIds, RoleData.tagIds]
  induction r.tags with
  | nil => rfl
  | cons t ts ih =>
    rw [List.filter_cons, ← isSome_lastKnown, List.map_cons, List.filterMap_cons]
    cases hk : lastKnown tags t.id with
    | none => simpa [hk] using ih
    | some u => simpa [hk] using ih

theorem holds_judge_any (levels : SkillLevels) (ts : List TagData) :
    (Operator.any.judge levels ts).holds = decide (∃ t ∈ ts, t.MetBy levels) := by
  rw [Operator.judge]
  by_cases h : ∃ t ∈ ts, t.MetBy levels
  · rw [if_pos h, decide_eq_true h]
  · rw [if_neg h, decide_eq_false h]

theorem judge_none_eq_not_any (levels : SkillLevels) (ts : List TagData) :
    (Operator.none.judge levels ts).holds = !(Operator.any.judge levels ts).holds := by
  rw [holds_judge_any, ← decide_not]
  simp only [Operator.judge, not_exists, not_and]

/-- A role is judged by the known tags it refers to, in its order: references to other tags never
matter, and of the same references `none` holds exactly when `any` does not. -/
theorem role_judges_known_references (levels : SkillLevels) (r : RoleData) (tags : List TagData) :
    role levels r tags = r.role.operator.judge levels (r.resolved tags) ∧
    role levels { r with tags := r.tags.filter fun t => tags.any fun u => u.tag.id = t.id } tags =
      role levels r tags ∧
    (role levels (r.under .none) tags).holds = !(role levels (r.under .any) tags).holds := by
  refine ⟨role_eq_judge levels r tags, ?_, ?_⟩
  · rw [role_eq_judge, role_eq_judge, resolved_filter]
  · rw [role_eq_judge, role_eq_judge]
    exact judge_none_eq_not_any levels (r.resolved tags)

end Matching

end Muster
