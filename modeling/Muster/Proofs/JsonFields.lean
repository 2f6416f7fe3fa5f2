import Mathlib.Data.List.Forall2
import Mathlib.Data.List.Nodup
import Muster.Json.Value

/-! What is read of the items of an array and of the fields of a record. -/

namespace Muster.Json

variable {α β : Type}

theorem mapM_eq_some_iff {f : α → Option β} {as : List α} {bs : List β} :
    as.mapM f = some bs ↔ List.Forall₂ (fun a b => f a = some b) as bs := by
  induction as generalizing bs with
  | nil => cases bs <;> simp
  | cons a as ih =>
    simp only [List.mapM_cons, Option.bind_eq_bind, Option.bind_eq_some_iff, Option.pure_def,
      Option.some.injEq, ih]
    constructor
    · rintro ⟨b, ha, bs, has, rfl⟩
      exact .cons ha has
    · rintro (_ | ⟨ha, has⟩)
      exact ⟨_, ha, _, has, rfl⟩

theorem asString?_eq_some {v : Json} {s : String} : v.asString? = some s ↔ v = .str s := by
  cases v <;> simp [asString?, str]

theorem mapM_asString? {items : List Json} {names : List String} :
    items.mapM asString? = some names ↔ items = names.map str := by
  simp only [mapM_eq_some_iff, asString?_eq_some, ← List.forall₂_eq_eq_eq, List.forall₂_map_right_iff]

theorem get?_of_member? {members : List (Literal × Json)} {name : String} {need : Need} {v : Option Json}
    (h : member? members name need = some v) : (object members).get? name = v := by
  rw [member?] at h
  rw [get?, ← List.head?_filter]
  split at h
  · rename_i hnone
    rw [hnone]
    split at h <;> cases h
    rfl
  · rename_i hone
    rw [hone]
    cases h
    rfl
  · cases h

theorem fields?_object {fields : List (String × Need)} {members : List (Literal × Json)}
    {vs : List (Option Json)} (h : (object members).fields? fields = some vs) :
    vs = fields.map fun f => (object members).get? f.1 := by
  rw [fields?] at h
  split at h
  · cases h
  · have hread := (mapM_eq_some_iff.1 h).imp fun _ _ => get?_of_member?
    rw [← List.forall₂_eq_eq_eq, List.forall₂_map_right_iff]
    exact hread.flip.imp fun _ _ => Eq.symm

theorem filter_name_of_forall_ne {ms : List (Literal × Json)} {name : String} (h : some name ∉ ms.map (·.1)) :
    ms.filter (fun m => m.1 == some name) = [] :=
  List.filter_eq_nil_iff.2 fun m hm => by simpa using fun hname => h (List.mem_map.2 ⟨m, hm, hname⟩)

theorem filter_name_of_mem {ms : List (Literal × Json)} (hnames : (ms.map (·.1)).Nodup) {name : String}
    {v : Json} (h : (some name, v) ∈ ms) : ms.filter (fun m => m.1 == some name) = [(some name, v)] := by
  induction ms with
  | nil => cases h
  | cons m ms ih =>
    obtain ⟨hfirst, hnames⟩ := List.nodup_cons.1 hnames
    obtain rfl | h := List.mem_cons.1 h
    · rw [List.filter_cons_of_pos (by simp), filter_name_of_forall_ne hfirst]
    · have hm : m.1 ≠ some name := fun hm => hfirst (List.mem_map.2 ⟨_, h, hm.symm⟩)
      rw [List.filter_cons_of_neg (by simpa using hm), ih hnames h]

theorem member?_of_perm {named others members : List (Literal × Json)} (hnames : (named.map (·.1)).Nodup)
    (hothers : ∀ o ∈ others, o.1 ∉ named.map (·.1)) (hperm : members.Perm (named ++ others)) {name : String}
    {v : Json} (h : (some name, v) ∈ named) (need : Need) : member? members name need = some (some v) := by
  have hnone : some name ∉ others.map (·.1) := by
    intro ho
    obtain ⟨o, ho, hname⟩ := List.mem_map.1 ho
    exact hothers o ho (List.mem_map.2 ⟨_, h, hname.symm⟩)
  have hfound : members.filter (fun m => m.1 == some name) = [(some name, v)] := by
    refine List.perm_singleton.1 ((hperm.filter _).trans ?_)
    rw [List.filter_append, filter_name_of_mem hnames h, filter_name_of_forall_ne hnone, List.append_nil]
  rw [member?, hfound]

theorem positions?_of_length {fields : List (String × Need)} {vs : List Json}
    (h : fields.length = vs.length) : positions? fields vs = some (vs.map some) := by
  induction vs generalizing fields with
  | nil => rw [List.length_eq_zero_iff.1 h, positions?, List.map_nil]
  | cons v vs ih =>
    obtain ⟨field, fields, rfl⟩ := List.exists_cons_of_length_eq_add_one h
    rw [positions?, ih (by simpa using h), Option.map_some, List.map_cons]

/-- The fields of an object are found in any order of its members and with others among them. -/
theorem fields?_of_perm {names : List String} {vs : List Json} {others members : List (Literal × Json)}
    (hnames : names.Nodup) (hlength : names.length = vs.length)
    (hothers : ∀ o ∈ others, o.1.isSome = true ∧ o.1 ∉ names.map some)
    (hperm : members.Perm ((names.map some).zip vs ++ others)) {asked : List (String × Need)}
    (hasked : asked.map (·.1) = names) : fields? asked (.object members) = some (vs.map some) := by
  subst hasked
  have hzip : ((asked.map (·.1)).map some).zip vs = (asked.zip vs).map fun p => (some p.1.1, p.2) := by
    simp [List.zip_map_left, Prod.map]
  have hkeys : (((asked.map (·.1)).map some).zip vs).map (·.1) = (asked.map (·.1)).map some :=
    List.map_fst_zip (Nat.le_of_eq (by simpa using hlength))
  have hreadable : (members.any fun m => m.1.isNone) = false := by
    refine List.any_eq_false.2 fun m hm => ?_
    obtain hm | hm := List.mem_append.1 (hperm.subset hm)
    · obtain ⟨_, _, rfl⟩ := List.mem_map.1 (hzip ▸ hm)
      simp
    · simp [Option.isSome_iff_ne_none.1 (hothers m hm).1]
  have hfound : List.Forall₂ (fun (f : String × Need) v => member? members f.1 f.2 = some (some v))
      asked vs := by
    refine List.forall₂_iff_zip.2 ⟨by simpa using hlength, fun {f v} hmem => ?_⟩
    refine member?_of_perm ?_ ?_ hperm ?_ f.2
    · rw [hkeys]
      exact hnames.map fun _ _ => Option.some.inj
    · rw [hkeys]
      exact fun o ho => (hothers o ho).2
    · rw [hzip]
      exact List.mem_map_of_mem hmem
  rw [fields?, hreadable]
  exact mapM_eq_some_iff.2 (List.forall₂_map_right_iff.2 hfound)

end Muster.Json
