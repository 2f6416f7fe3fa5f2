import Muster.Proofs.JsonFields
import Muster.Proofs.JsonText

/-! The layouts in which a record can be given: an object with its members in any order and among others, or
an array of its fields. The fields are found in each of them. -/

namespace Muster.Json

variable {α : Type}

/-- Another way to give a value. The members of an object may come in any order and with members of other
readable names among them, or without their names as an array. -/
inductive Layout : Json → Json → Prop
  | null : Layout .null .null
  | bool (b : Bool) : Layout (.bool b) (.bool b)
  | number (n : Number) : Layout (.number n) (.number n)
  | text (t : Literal) : Layout (.text t) (.text t)
  | array {vs ws : List Json} : List.Forall₂ Layout vs ws → Layout (.array vs) (.array ws)
  | object {ms others members : List (Literal × Json)} {vs : List Json} :
    List.Forall₂ Layout (ms.map (·.2)) vs → (∀ o ∈ others, o.1.isSome = true ∧ o.1 ∉ ms.map (·.1)) →
    members.Perm ((ms.map (·.1)).zip vs ++ others) → Layout (.object ms) (.object members)
  | fields {ms : List (Literal × Json)} {vs : List Json} :
    List.Forall₂ Layout (ms.map (·.2)) vs → Layout (.object ms) (.array vs)

mutual

theorem layout_refl (j : Json) : j.Layout j := by
  match j with
  | .null => exact .null
  | .bool b => exact .bool b
  | .number n => exact .number n
  | .text t => exact .text t
  | .array vs => exact .array (layout_items vs)
  | .object ms =>
    refine @Layout.object ms [] ms (ms.map (·.2)) (layout_members ms) nofun ?_
    rw [List.append_nil, List.zip_map', List.map_id'']
    exact fun _ => rfl

theorem layout_items (vs : List Json) : List.Forall₂ Layout vs vs := by
  match vs with
  | [] => exact .nil
  | v :: vs => exact .cons (layout_refl v) (layout_items vs)

theorem layout_members (ms : List (Literal × Json)) :
    List.Forall₂ Layout (ms.map (·.2)) (ms.map (·.2)) := by
  match ms with
  | [] => exact .nil
  | (_, v) :: ms => exact .cons (layout_refl v) (layout_members ms)

end

/-! Fields -/

/-- The fields of a record are found in each of its layouts, in the order of the record. -/
theorem Layout.fields? {ms : List (String × Json)} {j : Json} (h : (record ms).Layout j)
    (hnames : (ms.map (·.1)).Nodup) : ∃ vs, List.Forall₂ (fun m v => m.2.Layout v) ms vs ∧
      ∀ asked, asked.map (·.1) = ms.map (·.1) → Json.fields? asked j = some (vs.map some) := by
  have hkeys : (ms.map fun m => ((some m.1, m.2) : Literal × Json)).map (·.1) = (ms.map (·.1)).map some := by
    simp
  have hvalues : (ms.map fun m => ((some m.1, m.2) : Literal × Json)).map (·.2) = ms.map (·.2) := by simp
  rw [record] at h
  cases h with
  | @object _ others members vs hvs hothers hperm =>
    rw [hkeys] at hothers hperm
    rw [hvalues, List.forall₂_map_left_iff] at hvs
    have hlength : (ms.map (·.1)).length = vs.length := by rw [List.length_map, hvs.length_eq]
    exact ⟨vs, hvs, fun asked => fields?_of_perm hnames hlength hothers hperm⟩
  | @fields _ vs hvs =>
    rw [hvalues, List.forall₂_map_left_iff] at hvs
    refine ⟨vs, hvs, fun asked hasked => positions?_of_length ?_⟩
    have hlength : asked.length = ms.length := by simpa using congrArg List.length hasked
    exact hlength.trans hvs.length_eq

theorem Layout.required? {ms : List (String × Json)} {j : Json} (h : (record ms).Layout j)
    (hnames : (ms.map (·.1)).Nodup) : ∃ vs, List.Forall₂ (fun m v => m.2.Layout v) ms vs ∧
      Json.required? (ms.map (·.1)) j = some vs := by
  obtain ⟨vs, hvs, hfields⟩ := h.fields? hnames
  refine ⟨vs, hvs, ?_⟩
  rw [Json.required?, hfields _ (by simp), Option.bind_some]
  exact mapM_eq_some_iff.2 (List.forall₂_map_left_iff.2 (List.forall₂_same.2 fun _ _ => rfl))

/-! Values -/

/-- What stands for a value can be written, and in each of its layouts the value is read. -/
structure ReadsBack (f : Json → Option α) (j : Json) (a : α) : Prop where
  plain : j.Plain
  reads : ∀ {k}, j.Layout k → f k = some a

namespace ReadsBack

variable {f : Json → Option α} {g : α → Json} {j : Json} {a : α}

theorem written (h : ReadsBack f j a) : (read? j.write).bind f = some a := by
  rw [read?_write h.plain, Option.bind_some, h.reads (layout_refl j)]

theorem laidOut (h : ReadsBack f j a) {k : Json} {text : String} (hk : j.Layout k) (ht : k.Spelt text) :
    (read? text).bind f = some a := by
  rw [ht.read?, Option.bind_some, h.reads hk]

theorem int64 {i : Int} (h : Text.fits64 i = true) : ReadsBack asInt64? (.int i) i where
  plain := plain_int h
  reads hk := by
    cases hk with
    | number => exact Option.filter_eq_some_iff.2 ⟨rfl, h⟩

theorem str (s : String) : ReadsBack asString? (.str s) s where
  plain := plain_str s
  reads hk := by
    cases hk with
    | text => rfl

theorem list {as : List α} (h : ∀ a ∈ as, ReadsBack f (g a) a) : ReadsBack (asList? f) (.list g as) as where
  plain := plain_list fun a ha => (h a ha).plain
  reads hk := by
    cases hk with
    | @array _ vs hvs =>
      rw [List.forall₂_map_left_iff] at hvs
      have hread : List.Forall₂ (fun v a => f v = some a) vs as := by
        induction hvs with
        | nil => exact .nil
        | cons hv _ ih => exact .cons ((h _ (by simp)).reads hv) (ih fun a ha => h a (by simp [ha]))
      exact mapM_eq_some_iff.2 hread

theorem option {o : Option α} (h : ∀ a ∈ o, ReadsBack f (g a) a) (hnull : ∀ a ∈ o, ¬(g a).Layout .null) :
    ReadsBack (asOption? f) (.ofOption g o) o := by
  cases o with
  | none =>
    refine ⟨trivial, fun hk => ?_⟩
    cases hk with
    | null => rfl
  | some a =>
    refine ⟨(h a rfl).plain, fun hk => ?_⟩
    rw [asOption?.eq_def]
    split
    · exact absurd hk (hnull a rfl)
    · rw [(h a rfl).reads hk, Option.map_some]

end ReadsBack

end Muster.Json
