import Muster.Time

/-! Each day is of one date of the calendar, and the date tells the day. -/

namespace Muster.Date

theorem beforeYear_succ (year : Int) :
    beforeYear (year + 1) = beforeYear year + beforeMonth (isLeap year) 13 := by
  have hlength : (beforeMonth (isLeap year) 13 : Int) =
      365 + (year / 4 - (year - 1) / 4) - (year / 100 - (year - 1) / 100) +
        (year / 400 - (year - 1) / 400) := by
    cases hleap : isLeap year <;> simp [isLeap] at hleap <;> simp [beforeMonth] <;> omega
  rw [hlength, beforeYear, beforeYear]
  omega

theorem yearOf_spec (days : Int) :
    beforeYear (yearOf days) ≤ days ∧ days < beforeYear (yearOf days + 1) := by
  have hlate : days < beforeYear (days * 400 / 146097 + 1 + 1) := by
    rw [beforeYear]
    omega
  have hearly : beforeYear (days * 400 / 146097 - 1) ≤ days := by
    rw [beforeYear]
    omega
  rw [yearOf]
  split
  · exact ⟨‹_›, hlate⟩
  · split
    · exact ⟨‹_›, by omega⟩
    · rw [Int.sub_add_cancel]
      exact ⟨hearly, by omega⟩

theorem monthOf_spec (leap : Bool) (day month : Nat) :
    monthOf leap day month ≤ month ∧ beforeMonth leap (monthOf leap day month) ≤ day ∧
      ∀ later ≤ month, monthOf leap day month < later → day < beforeMonth leap later := by
  induction month with
  | zero =>
    have hzero : beforeMonth leap 0 = 0 := by cases leap <;> rfl
    exact ⟨Nat.le_refl 0, by rw [monthOf, hzero]; exact Nat.zero_le _, fun later hle hlt => by omega⟩
  | succ month ih =>
    rw [monthOf]
    split
    · exact ⟨Nat.le_refl _, ‹_›, fun later hle hlt => by omega⟩
    · obtain ⟨hle, hbegin, hlast⟩ := ih
      refine ⟨Nat.le_succ_of_le hle, hbegin, fun later hlater hlt => ?_⟩
      obtain rfl | hlater := Nat.eq_or_lt_of_le hlater
      · exact Nat.lt_of_not_le ‹_›
      · exact hlast later (Nat.le_of_lt_succ hlater) hlt

theorem monthOf_twelve {leap : Bool} {day : Nat} (h : day < beforeMonth leap 13) :
    1 ≤ monthOf leap day 12 ∧ monthOf leap day 12 ≤ 12 ∧
      beforeMonth leap (monthOf leap day 12) ≤ day ∧
      day < beforeMonth leap (monthOf leap day 12 + 1) := by
  obtain ⟨htwelve, hbegin, hlast⟩ := monthOf_spec leap day 12
  have hone : beforeMonth leap 1 = 0 := by cases leap <;> rfl
  refine ⟨?_, htwelve, hbegin, ?_⟩
  · refine Nat.le_of_not_lt fun hnone => ?_
    have hfirst := hlast 1 (by decide) hnone
    omega
  · obtain he | hlt := Nat.eq_or_lt_of_le htwelve
    · rw [he]
      exact h
    · exact hlast _ hlt (Nat.lt_succ_self _)

theorem isValid_iff (d : Date) : d.isValid = true ↔
    1 ≤ d.month ∧ d.month ≤ 12 ∧ 1 ≤ d.day ∧ d.day ≤ monthLength (isLeap d.year) d.month := by
  simp [isValid, and_assoc]

theorem monthLength_le (leap : Bool) : ∀ month ≤ 12, monthLength leap month ≤ 31 := by
  cases leap <;> decide

/-- A date that is made of a day is a date of the calendar, and tells the day. -/
theorem ofDays_spec (days : Int) : (ofDays days).isValid = true ∧ (ofDays days).toDays = days := by
  obtain ⟨hbegin, hend⟩ := yearOf_spec days
  rw [beforeYear_succ] at hend
  have hday : (days - beforeYear (yearOf days)).toNat < beforeMonth (isLeap (yearOf days)) 13 := by
    omega
  obtain ⟨hone, htwelve, hmonth, hnext⟩ := monthOf_twelve hday
  rw [isValid_iff]
  simp only [ofDays, toDays, monthLength]
  omega

end Muster.Date
