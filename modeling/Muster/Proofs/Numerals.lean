import Mathlib.Data.Nat.Digits.Defs
import Muster.Proofs.Digits

/-! What is read as a number: decimal digits, with the value that they have by their places. -/

namespace Muster.Text

/-- One digit or more, of which the last counts once, the one before it ten times, and so on. -/
def Decimal (cs : List Char) (n : Nat) : Prop :=
  ∃ ds : List Nat, ds ≠ [] ∧ (∀ d ∈ ds, d ≤ 9) ∧ cs = ds.map Nat.digitChar ∧
    n = Nat.ofDigits 10 ds.reverse

/-- A decimal number below 2 ^ 64, with a plus sign in front of it or without. -/
def Unsigned64 (cs : List Char) (n : Nat) : Prop :=
  (Decimal cs n ∨ ∃ ds, cs = '+' :: ds ∧ Decimal ds n) ∧ n < 2 ^ 64

inductive Signed : List Char → Int → Prop
  | bare {ds : List Char} {n : Nat} : Decimal ds n → Signed ds n
  | plus {ds : List Char} {n : Nat} : Decimal ds n → Signed ('+' :: ds) n
  | minus {ds : List Char} {n : Nat} : Decimal ds n → Signed ('-' :: ds) (-n)

def Signed64 (cs : List Char) (i : Int) : Prop := Signed cs i ∧ -2 ^ 63 ≤ i ∧ i < 2 ^ 63

theorem ofDigits_reverse (ds : List Nat) :
    Nat.ofDigits 10 ds.reverse = ds.foldl (fun n d => n * 10 + d) 0 := by
  rw [Nat.ofDigits_eq_foldr, List.foldr_reverse]
  congr
  funext n d
  simp only [Nat.cast_id]
  omega

theorem readDigits_eq_some_iff {cs : List Char} {acc n : Nat} : readDigits 10 acc cs = some n ↔
    ∃ ds : List Nat, (∀ d ∈ ds, d ≤ 9) ∧ cs = ds.map Nat.digitChar ∧
      n = ds.foldl (fun n d => n * 10 + d) acc := by
  induction cs generalizing acc with
  | nil =>
    constructor
    · intro h
      cases h
      exact ⟨[], by simp⟩
    · rintro ⟨ds, -, hds, rfl⟩
      obtain rfl := List.map_eq_nil_iff.1 hds.symm
      rfl
  | cons c cs ih =>
    rw [readDigits, Option.bind_eq_some_iff]
    constructor
    · rintro ⟨d, hd, h⟩
      obtain ⟨hle, rfl⟩ := digitValue_eq_some_iff.1 hd
      obtain ⟨ds, hds, rfl, rfl⟩ := ih.1 h
      exact ⟨d :: ds, by simpa [hle] using hds, rfl, rfl⟩
    · rintro ⟨_ | ⟨d, ds⟩, hds, hcs, rfl⟩
      · cases hcs
      · obtain ⟨rfl, rfl⟩ := List.cons_eq_cons.1 hcs
        have hle : d ≤ 9 ∧ ∀ e ∈ ds, e ≤ 9 := List.forall_mem_cons.1 hds
        exact ⟨d, digitValue_eq_some_iff.2 ⟨hle.1, rfl⟩, ih.2 ⟨ds, hle.2, rfl, rfl⟩⟩

theorem readNat_eq_some_iff {cs : List Char} {n : Nat} : readNat 10 cs = some n ↔ Decimal cs n := by
  cases cs with
  | nil =>
    constructor
    · intro h
      cases h
    · rintro ⟨ds, hne, -, hds, -⟩
      exact absurd (List.map_eq_nil_iff.1 hds.symm) hne
  | cons c cs =>
    rw [readNat, readDigits_eq_some_iff, Decimal]
    · constructor
      · rintro ⟨ds, hds, hcs, rfl⟩
        have hne : ds ≠ [] := by
          rintro rfl
          cases hcs
        exact ⟨ds, hne, hds, hcs, (ofDigits_reverse ds).symm⟩
      · rintro ⟨ds, -, hds, hcs, rfl⟩
        exact ⟨ds, hds, hcs, ofDigits_reverse ds⟩
    · exact List.cons_ne_nil c cs

theorem readUnsigned_eq_some_iff {cs : List Char} {n : Nat} : readUnsigned 10 cs = some n ↔
    Decimal cs n ∨ ∃ ds, cs = '+' :: ds ∧ Decimal ds n := by
  have hsign (ds : List Char) : ¬Decimal ('+' :: ds) n := by
    rw [← readNat_eq_some_iff, readNat_cons_sign (.inr rfl)]
    exact Option.some_ne_none n ∘ Eq.symm
  by_cases h : ∃ ds, cs = '+' :: ds
  · obtain ⟨ds, rfl⟩ := h
    rw [readUnsigned, readNat_eq_some_iff]
    simp [hsign]
  · have hunsigned : ¬∃ ds, cs = '+' :: ds ∧ Decimal ds n := by
      rintro ⟨ds, hds, -⟩
      exact h ⟨ds, hds⟩
    rw [readUnsigned.eq_2 _ _ fun ds hds => h ⟨ds, hds⟩, readNat_eq_some_iff]
    exact (or_iff_left hunsigned).symm

theorem readUInt64_eq_some_iff {cs : List Char} {n : Nat} :
    readUInt64 cs = some n ↔ Unsigned64 cs n := by
  rw [readUInt64, Option.filter_eq_some_iff, readUnsigned_eq_some_iff, Unsigned64]
  simp

theorem Decimal.digits {ds : List Char} {n : Nat} (h : Decimal ds n) {c : Char} (hc : c ∈ ds) :
    ∃ d ≤ 9, c = Nat.digitChar d := by
  obtain ⟨ks, -, hks, rfl, -⟩ := h
  obtain ⟨d, hd, rfl⟩ := List.mem_map.1 hc
  exact ⟨d, hks d hd, rfl⟩

theorem Signed.chars {cs : List Char} {i : Int} (h : Signed cs i) {c : Char} (hc : c ∈ cs) :
    c = '+' ∨ c = '-' ∨ ∃ d ≤ 9, c = Nat.digitChar d := by
  cases h with
  | bare hd => exact .inr (.inr (hd.digits hc))
  | plus hd =>
    obtain rfl | hc := List.mem_cons.1 hc
    · exact .inl rfl
    · exact .inr (.inr (hd.digits hc))
  | minus hd =>
    obtain rfl | hc := List.mem_cons.1 hc
    · exact .inr (.inl rfl)
    · exact .inr (.inr (hd.digits hc))

theorem readSigned_eq_some_iff {cs : List Char} {i : Int} : readSigned cs = some i ↔ Signed cs i := by
  constructor
  · intro h
    rw [readSigned.eq_def] at h
    split at h
    · rename_i ds
      cases hn : readNat 10 ds with
      | none => simp [hn] at h
      | some n =>
        obtain rfl : -(n : Int) = i := by simpa [hn] using h
        exact .minus (readNat_eq_some_iff.1 hn)
    · obtain ⟨n, hn, rfl⟩ := Option.map_eq_some_iff.1 h
      obtain hd | ⟨ds, rfl, hd⟩ := readUnsigned_eq_some_iff.1 hn
      · exact .bare hd
      · exact .plus hd
  · have unsigned {n : Nat} (hsign : ∀ ds, cs ≠ '-' :: ds) (hn : readUnsigned 10 cs = some n) :
        readSigned cs = some (n : Int) := by
      rw [readSigned.eq_2 _ hsign, hn]
      rfl
    intro h
    cases h with
    | bare hd =>
      refine unsigned (fun ds hds => ?_) (readUnsigned_eq_some_iff.2 (.inl hd))
      rw [hds, ← readNat_eq_some_iff, readNat_cons_sign (.inl rfl)] at hd
      cases hd
    | plus hd =>
      exact unsigned (fun ds => by simp) (readUnsigned_eq_some_iff.2 (.inr ⟨_, rfl, hd⟩))
    | minus hd => simp [readSigned, readNat_eq_some_iff.2 hd]

theorem readInt64_eq_some_iff {cs : List Char} {i : Int} : readInt64 cs = some i ↔ Signed64 cs i := by
  rw [readInt64, Option.filter_eq_some_iff, readSigned_eq_some_iff, Signed64]
  simp [fits64]

end Muster.Text
