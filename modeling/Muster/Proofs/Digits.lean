import Muster.Text

/-! Decimal digits read back the number that they were written for, with or without a sign. -/

namespace Muster.Text

theorem digitValue_digitChar : ∀ k < 16, ∀ base ≤ 16, k < base →
    digitValue base (Nat.digitChar k) = some k := by
  decide

theorem digitValue_eq_some_iff {d : Char} {k : Nat} :
    digitValue 10 d = some k ↔ k ≤ 9 ∧ d = Nat.digitChar k := by
  constructor
  · intro h
    obtain ⟨hk, hd⟩ : k ≤ 9 ∧ d.toNat = 48 + k := by
      rw [digitValue] at h
      grind
    exact ⟨hk, Char.toNat_inj.1 (hd.trans (Nat.toNat_digitChar_of_lt_ten (by omega)).symm)⟩
  · rintro ⟨hk, rfl⟩
    exact digitValue_digitChar k (by omega) 10 (by decide) (by omega)

def HexDigit (c : Char) (n : Nat) : Prop := n < 16 ∧ (c = Nat.digitChar n ∨ c = (Nat.digitChar n).toUpper)

theorem digitValue_hex_eq_some_iff {c : Char} {n : Nat} : digitValue 16 c = some n ↔ HexDigit c n := by
  constructor
  · intro h
    have hn : n < 16 ∧ (c.toNat = 48 + n ∧ n < 10 ∨ c.toNat = 87 + n ∧ 10 ≤ n ∨ c.toNat = 55 + n ∧ 10 ≤ n) := by
      rw [digitValue] at h
      grind
    refine ⟨hn.1, ?_⟩
    have hsmall : ∀ n < 16, (Nat.digitChar n).toNat = if n < 10 then 48 + n else 87 + n := by decide
    have hlarge : ∀ n < 16, (Nat.digitChar n).toUpper.toNat = if n < 10 then 48 + n else 55 + n := by decide
    simp only [← Char.toNat_inj]
    rw [hsmall n hn.1, hlarge n hn.1]
    split <;> omega
  · intro h
    have hvalue : ∀ n < 16, digitValue 16 (Nat.digitChar n).toUpper = some n := by decide
    obtain ⟨hn, rfl | rfl⟩ := h
    · exact digitValue_digitChar n hn 16 (by decide) hn
    · exact hvalue n hn

theorem readDigits_append (base acc : Nat) (xs ys : List Char) :
    readDigits base acc (xs ++ ys) = (readDigits base acc xs).bind (readDigits base · ys) := by
  induction xs generalizing acc with
  | nil => rfl
  | cons c cs ih =>
    rw [List.cons_append, readDigits, readDigits]
    cases digitValue base c with
    | none => rfl
    | some d => exact ih _

theorem readDigits_toDigits (n : Nat) : readDigits 10 0 (Nat.toDigits 10 n) = some n := by
  induction n using Nat.strongRecOn with
  | _ n ih =>
    rw [Nat.toDigits_eq_if (by decide)]
    split
    · have h := digitValue_digitChar n (by omega) 10 (by decide) (by omega)
      simp [readDigits, h]
    · have h := digitValue_digitChar (n % 10) (by omega) 10 (by decide) (by omega)
      have hn : n / 10 * 10 + n % 10 = n := by omega
      rw [readDigits_append, ih (n / 10) (by omega)]
      simp [readDigits, h, hn]

theorem readNat_toDigits (n : Nat) : readNat 10 (Nat.toDigits 10 n) = some n := by
  rw [readNat, readDigits_toDigits]
  exact Nat.toDigits_ne_nil

theorem head?_toDigits (n : Nat) (h : n ≠ 0) : (Nat.toDigits 10 n).head? ≠ some '0' := by
  induction n using Nat.strongRecOn with
  | _ n ih =>
    rw [Nat.toDigits_eq_if (by decide)]
    split
    · simpa using h
    · have h' := ih (n / 10) (by omega) (by omega)
      obtain ⟨c, cs, hc⟩ := List.exists_cons_of_ne_nil (Nat.toDigits_ne_nil (b := 10) (n := n / 10))
      simpa [hc] using h'

theorem readNat_cons_sign {c : Char} (hc : c = '-' ∨ c = '+') (cs : List Char) :
    readNat 10 (c :: cs) = none := by
  have hvalue : digitValue 10 c = none := by
    obtain rfl | rfl := hc <;> decide
  rw [readNat, readDigits, hvalue, Option.bind_none]
  nofun

theorem readSigned_toString (i : Int) : readSigned (toString i).toList = some i := by
  have hdigits (n : Nat) : (Nat.repr n).toList = Nat.toDigits 10 n := by
    rw [Nat.repr, String.toList_ofList]
  cases i with
  | ofNat n =>
    have hstart (c : Char) (hc : c = '-' ∨ c = '+') (cs : List Char) : Nat.toDigits 10 n ≠ c :: cs := by
      intro h
      have hread := readNat_toDigits n
      rw [h, readNat_cons_sign hc] at hread
      cases hread
    have hrepr : (toString (Int.ofNat n)).toList = Nat.toDigits 10 n := hdigits n
    rw [hrepr, readSigned.eq_2, readUnsigned.eq_2, readNat_toDigits]
    · rfl
    · exact hstart _ (.inr rfl)
    · exact hstart _ (.inl rfl)
  | negSucc n =>
    have hrepr : (toString (Int.negSucc n)).toList = '-' :: Nat.toDigits 10 (n + 1) := by
      have hneg : toString (Int.negSucc n) = "-" ++ Nat.repr (n + 1) := rfl
      rw [hneg, String.toList_append, hdigits]
      rfl
    rw [hrepr, readSigned, readNat_toDigits]
    rfl

end Muster.Text
