import Mathlib.Data.List.DropRight
import Muster.Text

/-! Trimming takes the blanks around a text away, and nothing else. -/

namespace Muster.Text

def Trimmed (s : String) : Prop :=
  (∀ c ∈ s.toList.head?, isBlank c = false) ∧ ∀ c ∈ s.toList.getLast?, isBlank c = false

theorem trimStart_eq_iff {cs : List Char} :
    trimStart cs = cs ↔ ∀ c ∈ cs.head?, isBlank c = false := by
  cases cs with
  | nil => simp [trimStart]
  | cons c cs =>
    rw [trimStart, List.dropWhile_eq_self_iff]
    simp

theorem trimEnd_eq_iff {cs : List Char} :
    trimEnd cs = cs ↔ ∀ c ∈ cs.getLast?, isBlank c = false := by
  have h := @trimStart_eq_iff cs.reverse
  rw [List.head?_reverse] at h
  rw [← h, trimEnd, List.reverse_eq_iff, trimStart]

theorem trimChars_eq_iff {cs : List Char} : trimChars cs = cs ↔ trimStart cs = cs ∧ trimEnd cs = cs := by
  constructor
  · intro h
    have hstart : (trimStart cs).length ≤ cs.length := (List.dropWhile_suffix _).length_le
    have hend : (trimChars cs).length ≤ (trimStart cs).length := (List.rdropWhile_prefix _ _).length_le
    rw [h] at hend
    have hsame : trimStart cs = cs :=
      (List.dropWhile_suffix _).eq_of_length (Nat.le_antisymm hstart hend)
    exact ⟨hsame, by rwa [trimChars, hsame] at h⟩
  · intro ⟨hstart, hend⟩
    rw [trimChars, hstart, hend]

theorem trimChars_sublist (cs : List Char) : (trimChars cs).Sublist cs :=
  (List.rdropWhile_prefix _ _).sublist.trans (List.dropWhile_suffix _).sublist

theorem exists_around_trimChars (cs : List Char) : ∃ left right,
    cs = left ++ trimChars cs ++ right ∧ ∀ c ∈ left ++ right, isBlank c = true := by
  refine ⟨cs.takeWhile isBlank, ((trimStart cs).reverse.takeWhile isBlank).reverse, ?_, ?_⟩
  · rw [List.append_assoc, trimChars, trimEnd, ← List.reverse_append, List.takeWhile_append_dropWhile,
      List.reverse_reverse, trimStart, List.takeWhile_append_dropWhile]
  · intro c hc
    obtain hc | hc := List.mem_append.1 hc
    · exact List.mem_takeWhile_imp hc
    · exact List.mem_takeWhile_imp (List.mem_reverse.1 hc)

theorem trimChars_around {left right body : List Char} (hbody : trimChars body = body)
    (hblank : ∀ c ∈ left ++ right, isBlank c = true) : trimChars (left ++ body ++ right) = body := by
  obtain ⟨hstart, hend⟩ := trimChars_eq_iff.1 hbody
  obtain ⟨hleft, hright⟩ := List.forall_mem_append.1 hblank
  have hfirst : trimStart (left ++ body ++ right) = trimStart (body ++ right) := by
    rw [trimStart, List.append_assoc, List.dropWhile_append_of_pos hleft]
    rfl
  have hlast : trimEnd (body ++ right) = body := by
    rw [trimEnd, List.reverse_append,
      List.dropWhile_append_of_pos fun c hc => hright c (List.mem_reverse.1 hc)]
    exact hend
  rw [trimChars, hfirst]
  cases body with
  | nil =>
    have hnil : trimStart right = [] := List.dropWhile_eq_nil_iff.2 hright
    rw [List.nil_append, hnil]
    rfl
  | cons c cs =>
    have hc : isBlank c = false := trimStart_eq_iff.1 hstart c rfl
    rw [List.cons_append, trimStart, List.dropWhile_cons_of_neg (by simp [hc])]
    exact hlast

theorem trimmed_iff {s : String} : Trimmed s ↔ trim s = s := by
  rw [Trimmed, ← trimStart_eq_iff, ← trimEnd_eq_iff, ← trimChars_eq_iff, trim]
  constructor
  · intro h
    rw [h, String.ofList_toList]
  · intro h
    rw [← String.toList_ofList (l := trimChars s.toList), h]

theorem mem_trimChars {cs : List Char} {c : Char} (h : c ∈ cs) (hc : isBlank c = false) :
    c ∈ trimChars cs := by
  have kept (ds : List Char) (hd : c ∈ ds) : c ∈ ds.dropWhile isBlank := by
    rw [← List.takeWhile_append_dropWhile (p := isBlank) (l := ds), List.mem_append] at hd
    refine hd.resolve_left fun hblank => ?_
    rw [List.mem_takeWhile_imp hblank] at hc
    cases hc
  exact List.mem_reverse.2 (kept _ (List.mem_reverse.2 (kept cs h)))

theorem trimChars_trimChars (cs : List Char) : trimChars (trimChars cs) = trimChars cs := by
  have hend (ds : List Char) : trimEnd (trimEnd ds) = trimEnd ds := List.rdropWhile_idempotent _ _
  -- What is left of the end begins as before, and so with no blank.
  have hstart : trimStart (trimChars cs) = trimChars cs := by
    have hfirst : trimStart (trimStart cs) = trimStart cs := List.dropWhile_idempotent _ _
    obtain ⟨rest, hrest⟩ : trimChars cs <+: trimStart cs := List.rdropWhile_prefix _ _
    cases hcs : trimChars cs with
    | nil => rfl
    | cons c ds =>
      rw [← hrest, hcs, List.cons_append] at hfirst
      exact List.dropWhile_cons_of_neg (List.dropWhile_eq_self_iff.1 hfirst (Nat.succ_pos _))
  rw [trimChars, hstart]
  exact hend _

theorem trimmed_trim (s : String) : Trimmed (trim s) := by
  rw [trimmed_iff, trim, trim, String.toList_ofList, trimChars_trimChars]

theorem isBlankText_trim {s : String} (h : isBlankText s = false) : isBlankText (trim s) = false := by
  rw [isBlankText, List.all_eq_false] at h ⊢
  obtain ⟨c, hc, hblank⟩ := h
  refine ⟨c, ?_, hblank⟩
  rw [trim, String.toList_ofList]
  exact mem_trimChars hc (eq_false_of_ne_true hblank)

theorem ne_empty_of_not_blank {s : String} (h : isBlankText s = false) : s ≠ "" := by
  rintro rfl
  cases h

end Muster.Text
