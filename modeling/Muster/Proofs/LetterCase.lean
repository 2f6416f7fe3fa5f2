import Muster.Proofs.Collation
import Muster.Proofs.Trimming
import Muster.Text

/-! The case of ASCII letters decides neither what is blank nor what is a digit, and no order of names. -/

namespace Muster.Text

def lower (cs : List Char) : List Char := cs.map Char.toLower

/-! Characters -/

theorem toLower_cases (c : Char) :
    (65 ≤ c.toNat ∧ c.toNat ≤ 90) ∧ c.toLower.toNat = c.toNat + 32 ∨
      ¬(65 ≤ c.toNat ∧ c.toNat ≤ 90) ∧ c.toLower = c := by
  have hcapital : c.val ≥ 'A'.val ∧ c.val ≤ 'Z'.val ↔ 65 ≤ c.toNat ∧ c.toNat ≤ 90 := by
    simp only [ge_iff_le, UInt32.le_iff_toNat_le]
    rfl
  delta Char.toLower
  split
  · rename_i h
    have hc := hcapital.1 h
    have hsum : (c.val + ('a'.val - 'A'.val)).toNat = (c.toNat + 32) % 2 ^ 32 := UInt32.toNat_add ..
    refine .inl ⟨hc, hsum.trans ?_⟩
    omega
  · rename_i h
    exact .inr ⟨fun hc => h (hcapital.2 hc), rfl⟩

theorem isBlank_toLower (c : Char) : isBlank c.toLower = isBlank c := by
  have hletter (d : Char) (h₁ : 65 ≤ d.toNat) (h₂ : d.toNat ≤ 122) : isBlank d = false := by
    simp [isBlank]
    omega
  obtain ⟨⟨h₁, h₂⟩, h⟩ | ⟨-, h⟩ := toLower_cases c
  · rw [hletter c h₁ (by omega), hletter c.toLower (by omega) (by omega)]
  · rw [h]

theorem isDigit_toLower (c : Char) : isDigit c.toLower = isDigit c := by
  have hletter (d : Char) (h₁ : 65 ≤ d.toNat) (h₂ : d.toNat ≤ 122) : isDigit d = false := by
    simp [isDigit, zeros]
    omega
  obtain ⟨⟨h₁, h₂⟩, h⟩ | ⟨-, h⟩ := toLower_cases c
  · rw [hletter c h₁ (by omega), hletter c.toLower (by omega) (by omega)]
  · rw [h]

theorem toLower_of_isDigit {c : Char} (hc : isDigit c = true) : c.toLower = c := by
  obtain ⟨hcapital, -⟩ | ⟨-, h⟩ := toLower_cases c
  · simp [isDigit, zeros] at hc
    omega
  · exact h

theorem toLower_eq_hash_iff {c : Char} : c.toLower = '#' ↔ c = '#' := by
  obtain ⟨hcapital, hsum⟩ | ⟨-, h⟩ := toLower_cases c
  · have hhash : '#'.toNat = 35 := rfl
    constructor
    · intro h
      rw [h] at hsum
      omega
    · rintro rfl
      omega
  · rw [h]

/-! Trimming -/

theorem lower_dropWhile (cs : List Char) : lower (cs.dropWhile isBlank) = (lower cs).dropWhile isBlank := by
  have hblank : isBlank ∘ Char.toLower = isBlank := funext isBlank_toLower
  rw [lower, lower, List.dropWhile_map, hblank]

theorem lower_trimChars (cs : List Char) : lower (trimChars cs) = trimChars (lower cs) := by
  have hreverse (ds : List Char) : lower ds.reverse = (lower ds).reverse := List.map_reverse
  rw [trimChars, trimChars, trimEnd, trimEnd, trimStart, trimStart, hreverse, lower_dropWhile, hreverse,
    lower_dropWhile]

theorem toList_toLower (s : String) : s.toLower.toList = lower s.toList :=
  String.toList_map ..

theorem toLower_congr {s t : String} (h : lower s.toList = lower t.toList) : s.toLower = t.toLower :=
  String.toList_injective (by rw [toList_toLower, toList_toLower, h])

theorem toLower_ofList {cs cs' : List Char} (h : lower cs = lower cs') :
    (String.ofList cs).toLower = (String.ofList cs').toLower :=
  toLower_congr (by rwa [String.toList_ofList, String.toList_ofList])

theorem toLower_trim (s : String) : (trim s).toLower = trim s.toLower := by
  refine String.toList_injective ?_
  rw [toList_toLower, trim, trim, String.toList_ofList, String.toList_ofList, toList_toLower, lower_trimChars]

/-! Bytes -/

theorem foldByte_of_not_capital {b : UInt8} (h : ¬(65 ≤ b.toNat ∧ b.toNat ≤ 90)) : foldByte b = b := by
  have hcapital : ¬(65 ≤ b ∧ b ≤ 90) := by
    simpa only [UInt8.le_iff_toNat_le, UInt8.reduceToNat] using h
  rw [foldByte, if_neg hcapital]

theorem foldByte_foldByte (b : UInt8) : foldByte (foldByte b) = foldByte b := by
  by_cases h : 65 ≤ b.toNat ∧ b.toNat ≤ 90
  · refine foldByte_of_not_capital ?_
    have hcapital : 65 ≤ b ∧ b ≤ 90 := by
      simpa only [UInt8.le_iff_toNat_le, UInt8.reduceToNat] using h
    rw [foldByte, if_pos hcapital]
    simp only [UInt8.toNat_add, UInt8.reduceToNat]
    omega
  · rw [foldByte_of_not_capital h, foldByte_of_not_capital h]

theorem utf8EncodeChar_toLower (c : Char) :
    String.utf8EncodeChar c.toLower = (String.utf8EncodeChar c).map foldByte := by
  have hascii (d : Char) (h : d.toNat ≤ 127) : String.utf8EncodeChar d = [UInt8.ofNat d.toNat] := if_pos h
  obtain ⟨hcapital, hsum⟩ | ⟨hcapital, h⟩ := toLower_cases c
  · rw [hascii c (by omega), hascii c.toLower (by omega), hsum, List.map_singleton]
    have hbyte : 65 ≤ UInt8.ofNat c.toNat ∧ UInt8.ofNat c.toNat ≤ 90 := by
      simp only [UInt8.le_iff_toNat_le, UInt8.toNat_ofNat', UInt8.reduceToNat]
      omega
    rw [foldByte, if_pos hbyte, UInt8.ofNat_add]
    rfl
  · -- No byte of what is not a capital letter is one.
    have hbytes : ∀ b ∈ String.utf8EncodeChar c, ¬(65 ≤ b.toNat ∧ b.toNat ≤ 90) := by
      have hvalue : c.val.toNat = c.toNat := rfl
      simp only [String.utf8EncodeChar, hvalue]
      split
      · simp
        omega
      · split
        · simp
          omega
        · split <;> simp <;> omega
    rw [h, List.map_congr_left fun b hb => foldByte_of_not_capital (hbytes b hb), List.map_id']

theorem foldedBytes_map_foldByte (bs : Bytes) : foldedBytes (bs.map foldByte) = foldedBytes bs := by
  induction bs with
  | nil => rfl
  | cons b bs ih =>
    rw [List.map_cons, foldedBytes_cons, foldedBytes_cons, foldByte_foldByte, ih]
    simp only [foldByte_eq_zero_iff]

theorem bytesOf_toLower (s : String) : bytesOf s.toLower = (bytesOf s).map foldByte := by
  rw [bytesOf, bytesOf, utf8, utf8, toList_toLower, lower, List.flatMap_map, List.map_flatMap]
  exact congrArg (s.toList.flatMap ·) (funext utf8EncodeChar_toLower)

theorem collate_toLower (s t : String) : collate s t.toLower = collate s t := by
  rw [collate_eq, collate_eq]
  simp only [compareLex, compareOn, bytesOf_toLower, foldedBytes_map_foldByte, List.length_map]

theorem collate_congr {m n : String} (h : m.toLower = n.toLower) (s : String) :
    collate s m = collate s n := by
  rw [← collate_toLower s m, h, collate_toLower]

end Muster.Text
