import Mathlib.Data.List.Basic
import Muster.Text

/-! The pieces of a text are those without separators that join to it again. -/

namespace Muster.Text

variable {sep : Char} {cs : List Char}

theorem splitFirst_of_not_mem (h : sep ∉ cs) : splitFirst sep cs = (cs, []) := by
  induction cs with
  | nil => rfl
  | cons c cs ih =>
    rw [List.mem_cons, not_or] at h
    obtain ⟨hc, hcs⟩ := h
    rw [splitFirst, ih hcs]
    exact if_neg (Ne.symm hc)

theorem splitFirst_append (h : sep ∉ cs) (rest : List Char) :
    splitFirst sep (cs ++ sep :: rest) = (cs, pieces sep rest) := by
  induction cs with
  | nil => exact if_pos rfl
  | cons c cs ih =>
    rw [List.mem_cons, not_or] at h
    obtain ⟨hc, hcs⟩ := h
    rw [List.cons_append, splitFirst, ih hcs]
    exact if_neg (Ne.symm hc)

theorem pieces_cons_sep (sep : Char) (cs : List Char) : pieces sep (sep :: cs) = [] :: pieces sep cs := by
  simp [pieces, splitFirst]

theorem pieces_cons {c : Char} (h : c ≠ sep) (cs : List Char) :
    ∃ p ps, pieces sep cs = p :: ps ∧ pieces sep (c :: cs) = (c :: p) :: ps :=
  ⟨_, _, rfl, by simp [pieces, splitFirst, h]⟩

theorem flat_pieces {p : List Char} (h : p ∈ pieces sep cs) : sep ∉ p := by
  induction cs generalizing p with
  | nil =>
    rw [List.mem_singleton.1 h]
    exact List.not_mem_nil
  | cons c cs ih =>
    by_cases hc : c = sep
    · subst hc
      rw [pieces_cons_sep] at h
      obtain rfl | h := List.mem_cons.1 h
      · exact List.not_mem_nil
      · exact ih h
    · obtain ⟨q, qs, hcs, hcons⟩ := pieces_cons hc cs
      rw [hcs, List.forall_mem_cons] at ih
      rw [hcons] at h
      obtain rfl | h := List.mem_cons.1 h
      · rw [List.mem_cons, not_or]
        exact ⟨Ne.symm hc, ih.1⟩
      · exact ih.2 p h

theorem intercalate_pieces (sep : Char) (cs : List Char) : [sep].intercalate (pieces sep cs) = cs := by
  induction cs with
  | nil => rfl
  | cons c cs ih =>
    by_cases hc : c = sep
    · subst hc
      have hne : pieces c cs ≠ [] := List.cons_ne_nil _ _
      rw [pieces_cons_sep, List.intercalate_cons_of_ne_nil hne, ih]
      rfl
    · obtain ⟨q, qs, hcs, hcons⟩ := pieces_cons hc cs
      rw [hcs] at ih
      rw [hcons, ← ih]
      cases qs with
      | nil => simp only [List.intercalate_singleton]
      | cons => simp only [List.intercalate_cons_cons, List.cons_append]

theorem pieces_eq_iff {ps : List (List Char)} :
    pieces sep cs = ps ↔ ps ≠ [] ∧ (∀ p ∈ ps, sep ∉ p) ∧ [sep].intercalate ps = cs := by
  constructor
  · intro h
    subst h
    exact ⟨List.cons_ne_nil _ _, fun p => flat_pieces, intercalate_pieces sep cs⟩
  · intro h
    obtain ⟨hne, hflat, rfl⟩ := h
    induction ps with
    | nil => contradiction
    | cons p ps ih =>
      obtain ⟨hp, hps⟩ := List.forall_mem_cons.1 hflat
      cases ps with
      | nil => rw [List.intercalate_singleton, pieces, splitFirst_of_not_mem hp]
      | cons q qs =>
        rw [List.intercalate_cons_cons, List.append_assoc, List.singleton_append, pieces,
          splitFirst_append hp, ih (List.cons_ne_nil _ _) hps]

end Muster.Text
