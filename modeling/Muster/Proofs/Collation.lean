import Muster.Text.Bytes

/-! The order of names is total, and sorting by it keeps the order of what has the same name. -/

namespace Muster.Text

def foldedBytes : Bytes → Bytes
  | [] => []
  | b :: bs => if b = 0 then [0] else foldByte b :: foldedBytes bs

theorem foldByte_eq_zero_iff (b : UInt8) : foldByte b = 0 ↔ b = 0 := by
  rw [foldByte]
  split
  · rename_i h
    simp only [UInt8.le_iff_toNat_le, UInt8.reduceToNat] at h
    simp only [← UInt8.toNat_inj, UInt8.toNat_add, UInt8.reduceToNat]
    omega
  · rfl

theorem foldedBytes_cons (b : UInt8) (bs : Bytes) :
    foldedBytes (b :: bs) = foldByte b :: if b = 0 then [] else foldedBytes bs := by
  rw [foldedBytes]
  split
  · rename_i h
    subst h
    rfl
  · rfl

/-- A text whose folded bytes begin those of a longer one is shorter itself, so that comparing the
lengths at the end is comparing the folded bytes to their end. -/
theorem compareBytes_then (as bs : Bytes) :
    (compareBytes as bs).then (compare as.length bs.length) =
      (compare (foldedBytes as) (foldedBytes bs)).then (compare as.length bs.length) := by
  induction as generalizing bs with
  | nil =>
    cases bs with
    | nil => rfl
    | cons b bs =>
      have h : compare 0 (bs.length + 1) = .lt := Nat.compare_eq_lt.2 (by omega)
      rw [foldedBytes_cons, foldedBytes, List.compare_nil_cons]
      simpa [compareBytes] using h
  | cons a as ih =>
    cases bs with
    | nil =>
      have h : compare (as.length + 1) 0 = .gt := Nat.compare_eq_gt.2 (by omega)
      rw [foldedBytes_cons, foldedBytes, List.compare_cons_nil]
      simpa [compareBytes] using h
    | cons b bs =>
      rw [compareBytes, foldedBytes_cons, foldedBytes_cons, List.compare_cons_cons]
      by_cases hf : foldByte a = foldByte b
      · by_cases ha : a = 0
        · have hb : b = 0 := by rwa [← foldByte_eq_zero_iff, ← hf, foldByte_eq_zero_iff]
          simp [ha, hb]
        · have hb : b ≠ 0 := by rwa [Ne, ← foldByte_eq_zero_iff, ← hf, foldByte_eq_zero_iff]
          have hl : compare (as.length + 1) (bs.length + 1) = compare as.length bs.length := by
            simp [Nat.compare_eq_ite_lt]
          simp [hf, ha, hb, hl, ih]
      · have hne : compare (foldByte a) (foldByte b) ≠ .eq := fun he =>
          hf (Std.LawfulEqCmp.eq_of_compare he)
        cases hc : compare (foldByte a) (foldByte b) <;> simp_all

theorem collate_eq (s t : String) :
    collate s t =
      (compareLex (compareOn fun s => foldedBytes (bytesOf s))
        (compareOn fun s => (bytesOf s).length)) s t :=
  compareBytes_then (bytesOf s) (bytesOf t)

instance : Std.TransCmp collate := by
  have h : collate = _ := funext fun s => funext (collate_eq s)
  rw [h]
  infer_instance

variable {α : Type}

theorem sortByName_perm (name : α → String) (xs : List α) : (sortByName name xs).Perm xs :=
  List.mergeSort_perm xs _

theorem pairwise_sortByName (name : α → String) (earlier : α → α → Prop) (xs : List α)
    (h : xs.Pairwise earlier) :
    (sortByName name xs).Pairwise fun a b =>
      collate (name a) (name b) = .lt ∨ collate (name a) (name b) = .eq ∧ earlier a b := by
  have trans (a b c : α) (hab : (collate (name a) (name b)).isLE)
      (hbc : (collate (name b) (name c)).isLE) : (collate (name a) (name c)).isLE :=
    Std.TransCmp.isLE_trans hab hbc
  have total (a b : α) : (collate (name a) (name b)).isLE || (collate (name b) (name a)).isLE := by
    have hswap : collate (name b) (name a) = (collate (name a) (name b)).swap :=
      Std.OrientedCmp.eq_swap
    rw [hswap]
    cases collate (name a) (name b) <;> rfl
  have sorted := List.pairwise_mergeSort trans total
  -- On the list: what the head is put behind is less than it, and so what it came before still follows it.
  induction xs with
  | nil => simp [sortByName]
  | cons x xs ih =>
    obtain ⟨hx, hxs⟩ := List.pairwise_cons.1 h
    obtain ⟨l₁, l₂, hsort, hsort', hl₁⟩ := List.mergeSort_cons trans total x xs
    have hxs' := sorted (x :: xs)
    have ih' := ih hxs
    have hmem (b : α) (hb : b ∈ l₁ ++ l₂) : b ∈ xs := by
      rwa [← hsort', List.mem_mergeSort] at hb
    rw [sortByName] at ih' ⊢
    rw [hsort] at hxs' ⊢
    rw [hsort'] at ih'
    obtain ⟨h₁, h₂, h₁₂⟩ := List.pairwise_append.1 ih'
    obtain ⟨-, h₂x, -⟩ := List.pairwise_append.1 hxs'
    obtain ⟨hxl₂, -⟩ := List.pairwise_cons.1 h₂x
    refine List.pairwise_append.2 ⟨h₁, List.pairwise_cons.2 ⟨fun b hb => ?_, h₂⟩, fun a ha b hb => ?_⟩
    · have hle := hxl₂ b hb
      have hearlier := hx b (hmem b (List.mem_append_right l₁ hb))
      cases hc : collate (name x) (name b) with
      | lt => exact .inl rfl
      | eq => exact .inr ⟨rfl, hearlier⟩
      | gt => simp [hc] at hle
    · obtain rfl | hb := List.mem_cons.1 hb
      · have hlt := hl₁ a ha
        have hswap : collate (name a) (name b) = (collate (name b) (name a)).swap :=
          Std.OrientedCmp.eq_swap
        left
        rw [hswap]
        cases hc : collate (name b) (name a) <;> simp_all
      · exact h₁₂ a ha b hb

end Muster.Text
