import Muster.Proofs.Calendar
import Muster.Proofs.Digits
import Muster.Time

/-! The text of an instant to the second reads back as that second, if its year has four digits. -/

namespace Muster

namespace Text

theorem readDigits_zeros (k : Nat) (cs : List Char) :
    readDigits 10 0 (List.replicate k '0' ++ cs) = readDigits 10 0 cs := by
  induction k with
  | zero => rfl
  | succ k ih => exact ih

end Text

namespace Instant

theorem length_padded {width n : Nat} (h : (Nat.toDigits 10 n).length ≤ width) :
    (padded width n).length = width := by
  simp only [padded, List.length_append, List.length_replicate]
  omega

theorem readNat_padded (width n : Nat) : Text.readNat 10 (padded width n) = some n := by
  have hread : Text.readDigits 10 0 (padded width n) = some n := by
    rw [padded, Text.readDigits_zeros, Text.readDigits_toDigits]
  have hne : padded width n ≠ [] := by simp [padded, Nat.toDigits_ne_nil]
  obtain ⟨c, cs, hc⟩ := List.exists_cons_of_ne_nil hne
  rw [hc] at hread ⊢
  exact hread

theorem takeNumber_padded {width n : Nat} (h : (Nat.toDigits 10 n).length ≤ width)
    (rest : List Char) : takeNumber width (padded width n ++ rest) = some (n, rest) := by
  have hl := length_padded h
  rw [takeNumber, List.take_left' hl, List.drop_left' hl, if_pos hl, readNat_padded]
  rfl

def stamp (year month day hour minute second : Nat) : List Char :=
  padded 4 year ++ '-' :: (padded 2 month ++ '-' :: (padded 2 day ++ 'T' :: (padded 2 hour ++
    ':' :: (padded 2 minute ++ ':' :: (padded 2 second ++ ['Z'])))))

theorem readChars_stamp {year month day hour minute second : Nat} (hyear : year ≤ 9999)
    (hdate : Date.isValid ⟨year, month, day⟩ = true) (hmonth : month ≤ 99) (hday : day ≤ 99)
    (hhour : hour ≤ 23) (hminute : minute ≤ 59) (hsecond : second ≤ 60) :
    readChars (stamp year month day hour minute second) =
      some ⟨(Date.toDays ⟨year, month, day⟩ - epochDay) * 86400 + hour * 3600 + minute * 60 +
        min second 59, if second = 60 then billion else 0⟩ := by
  have hends : takeFraction ['Z'] = some (0, ['Z']) := rfl
  have hzulu : readOffset ['Z'] = some 0 := rfl
  have htwo (n : Nat) (hn : n ≤ 99) : (Nat.toDigits 10 n).length ≤ 2 :=
    (Nat.length_toDigits_le_iff (by decide) (by decide)).2 (by omega)
  have hfour : (Nat.toDigits 10 year).length ≤ 4 :=
    (Nat.length_toDigits_le_iff (by decide) (by decide)).2 (by omega)
  simp only [readChars, stamp, bind, Option.bind, takeChar, if_true, takeNumber_padded hfour,
    takeNumber_padded (htwo month hmonth), takeNumber_padded (htwo day hday),
    takeNumber_padded (htwo hour (by omega)), takeNumber_padded (htwo minute (by omega)),
    takeNumber_padded (htwo second (by omega)), hends, hzulu, hdate]
  rw [if_neg (by simp; omega), Int.sub_zero, Nat.zero_add]
  rfl

variable {t : Instant}

/-- The second that text to the second tells. A leap second that does not end its minute, of which there
is none, would be told as the second after. -/
def told (t : Instant) : Instant :=
  if t.isLeap = true ∧ t.seconds % 60 ≠ 59 then ⟨t.seconds + 1, 0⟩ else t.truncate

theorem told_eq_truncate (hleap : t.isLeap = true → t.seconds % 60 = 59) : t.told = t.truncate :=
  if_neg fun h => h.2 (hleap h.1)

/-- What text to the second is read back as, in years of four digits. -/
theorem read?_secondsText_eq (h : 0 ≤ t.year ∧ t.year ≤ 9999) : read? t.secondsText = some t.told := by
  obtain ⟨hvalid, hdays⟩ := Date.ofDays_spec t.day
  obtain ⟨-, htwelve, -, hday⟩ := (Date.isValid_iff _).1 hvalid
  have hlength := Date.monthLength_le (Date.isLeap (Date.ofDays t.day).year) _ htwelve
  have hyear : yearText t.year = padded 4 t.year.toNat := if_pos h
  have htext : t.wholeText ++ ['Z'] = stamp t.year.toNat (Date.ofDays t.day).month
      (Date.ofDays t.day).day (t.secondOfDay / 3600) (t.secondOfDay / 60 % 60)
      (t.secondOfDay % 60 + if t.isLeap then 1 else 0) := by
    rw [stamp, ← hyear]
    simp [wholeText, year]
  have hdate : (⟨t.year.toNat, (Date.ofDays t.day).month, (Date.ofDays t.day).day⟩ : Date) =
      Date.ofDays t.day := by
    rw [Int.toNat_of_nonneg h.1]
    rfl
  have hsecond : t.secondOfDay < 86400 ∧ t.day - epochDay = t.seconds / 86400 ∧
      (t.secondOfDay : Int) = t.seconds % 86400 := by
    rw [secondOfDay, day]
    omega
  rw [read?, secondsText, String.toList_ofList, htext, readChars_stamp (by omega) (hdate ▸ hvalid)
    (by omega) (by omega) (by omega) (by omega) (by split <;> omega), hdate, hdays, told, truncate]
  cases hl : t.isLeap with
  | true =>
    by_cases hlast : t.seconds % 60 = 59 <;> simp [hlast] <;> omega
  | false =>
    simp
    omega

theorem read?_secondsText (h : 0 ≤ t.year ∧ t.year ≤ 9999)
    (hleap : t.isLeap = true → t.seconds % 60 = 59) : read? t.secondsText = some t.truncate := by
  rw [read?_secondsText_eq h, told_eq_truncate hleap]

/-- A year that has not four digits is written with a sign, and cannot be read. -/
theorem read?_secondsText_of_sign (h : ¬(0 ≤ t.year ∧ t.year ≤ 9999)) :
    read? t.secondsText = none := by
  let sign := if t.year < 0 then '-' else '+'
  have hyear : yearText t.year = sign :: padded 4 t.year.natAbs := if_neg h
  have hnone : Text.digitValue 10 sign = none := by
    dsimp only [sign]
    split <;> rfl
  obtain ⟨cs, htext⟩ : ∃ cs, t.wholeText ++ ['Z'] = sign :: cs := by
    rw [year] at hyear
    simp [wholeText, hyear]
  have hfour : takeNumber 4 (sign :: cs) = none := by
    rw [takeNumber]
    split
    · rw [List.take_succ_cons, Text.readNat, Text.readDigits, hnone]
      · rfl
      · intro h
        cases h
    · rfl
  rw [read?, secondsText, String.toList_ofList, htext, readChars, hfour]
  rfl

end Instant

end Muster
