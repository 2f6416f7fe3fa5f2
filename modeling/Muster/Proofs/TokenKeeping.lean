import Muster.Proofs.InstantText
import Muster.Proofs.Renewal

/-! A token of a character is kept to the second of its end, in place of the one before, and what is read
back has to be renewed whenever the token itself has to. -/

namespace Muster

namespace Instant

variable {s t u : Instant}

theorem le_iff : s.le t = true ↔ s.seconds < t.seconds ∨ s.seconds = t.seconds ∧ s.nanos ≤ t.nanos := by
  simp [le]

theorem le_trans (h : s.le t = true) (h' : t.le u = true) : s.le u = true := by
  rw [le_iff] at *
  omega

theorem addSeconds_of_leap {n : Int} (h : t.isLeap = true) (hn : n < 0) :
    t.addSeconds n = ⟨t.seconds + 1 + n, t.nanos - billion⟩ := by
  rw [addSeconds, if_neg (by omega), h, if_pos rfl, if_neg (by omega)]

theorem addSeconds_of_not_leap (h : t.isLeap = false) (n : Int) :
    t.addSeconds n = ⟨t.seconds + n, t.nanos⟩ := by
  by_cases hn : n = 0
  · subst hn
    simp [addSeconds]
  · rw [addSeconds, if_neg hn, h, if_neg Bool.false_ne_true]

theorem told_addSeconds_le (t : Instant) {n : Int} (hn : n < 0) :
    (t.told.addSeconds n).le (t.addSeconds n) = true := by
  have hbillion : isLeap ⟨t.seconds, billion⟩ = true := rfl
  have hzero (seconds : Int) : isLeap ⟨seconds, 0⟩ = false := rfl
  cases hl : t.isLeap with
  | true =>
    rw [addSeconds_of_leap hl hn, told, truncate, hl, if_pos rfl]
    split
    · rw [addSeconds_of_not_leap (hzero _), le_iff]
      exact .inr ⟨rfl, Nat.zero_le _⟩
    · rw [addSeconds_of_leap hbillion hn, le_iff]
      refine .inr ⟨rfl, ?_⟩
      dsimp only
      omega
  | false =>
    rw [addSeconds_of_not_leap hl, told, truncate, hl, if_neg (fun h => Bool.false_ne_true h.1),
      if_neg Bool.false_ne_true, addSeconds_of_not_leap (hzero _), le_iff]
    exact .inr ⟨rfl, Nat.zero_le _⟩

end Instant

theorem Token.needsRefresh_told {t : Token} {now : Instant} (h : t.needsRefresh now = true) :
    { t with expiration := t.expiration.told }.needsRefresh now = true :=
  Instant.le_trans (t.expiration.told_addSeconds_le (by decide)) h

namespace Store

variable {s : Store} {t : TokenRow}

theorem putToken_of_contains (h : s.characters.contains t.characterId = true) :
    putToken t s = (.ok (), { s with
      characters := s.characters.adjust t.characterId fun row => { row with token := some (stored t) } }) := by
  rw [putToken, putStoredToken, get_bind_apply, h]
  rfl

/-- A token that is put for a stored character is read back as it was, to the second of its end, whatever
token there was before, and the tokens of other characters are as they were. What is read back has to be
renewed at all times at which the token itself has to. -/
theorem token_is_kept_to_the_second (hstored : s.characters.contains t.characterId = true)
    (hyear : 0 ≤ t.expiration.year ∧ t.expiration.year ≤ 9999) :
    ∃ s' row, putToken t s = (.ok (), s') ∧ s'.token? t.characterId = .ok (some row) ∧
      row = { t with expiration := t.expiration.told } ∧
      ((t.expiration.isLeap = true → t.expiration.seconds % 60 = 59) →
        row = { t with expiration := t.expiration.truncate }) ∧
      (∀ id, id ≠ t.characterId → s'.token? id = s.token? id) ∧
      ∀ now, t.needsRefresh now = true → row.needsRefresh now = true := by
  obtain ⟨old, hold⟩ := Option.isSome_iff_exists.1 hstored
  refine ⟨_, _, putToken_of_contains hstored, ?_, rfl, fun hleap => ?_, fun id hid => ?_,
    fun now => Token.needsRefresh_told⟩
  · refine token?_of_stored (t := stored t) ?_ (Instant.read?_secondsText_eq hyear)
    simp [hold]
  · rw [Instant.told_eq_truncate hleap]
  · simp only [token?, Table.get?_adjust, if_neg hid]

def sentries : Store :=
  (show Action Unit from do
    putCorporation ⟨500, none, "Caldari Navy", "CN", ""⟩
    putCharacter ⟨0, 0⟩ ⟨1, "Ada", "", 500⟩
    putCharacter ⟨0, 0⟩ ⟨2, "Bea", "", 500⟩
    putToken ⟨⟨"first", "one", "Bearer", ⟨0, 0⟩⟩, 1⟩
    putToken ⟨⟨"first", "two", "Bearer", ⟨0, 0⟩⟩, 2⟩) .empty |>.2

theorem leap_second_is_kept :
    let t : TokenRow := ⟨⟨"second", "one", "Bearer", ⟨1483228799, 1500000000⟩⟩, 1⟩
    sentries.characters.contains 1 = true ∧ (0 ≤ t.expiration.year ∧ t.expiration.year ≤ 9999) ∧
      t.expiration.secondsText = "2016-12-31T23:59:60Z" ∧
      ∃ s' row, putToken t sentries = (.ok (), s') ∧ s'.token? 1 = .ok (some row) ∧
        row = { t with expiration := ⟨1483228799, 1000000000⟩ } ∧ s'.token? 2 = sentries.token? 2 ∧
        row.needsRefresh ⟨1483228740, 500000000⟩ = true := by
  intro t
  have hstored : sentries.characters.contains 1 = true := by decide +kernel
  have hyear : 0 ≤ t.expiration.year ∧ t.expiration.year ≤ 9999 := by decide +kernel
  obtain ⟨s', row, hput, hread, -, hrow, hothers, hends⟩ := token_is_kept_to_the_second hstored hyear
  exact ⟨hstored, hyear, by decide +kernel, s', row, hput, hread, hrow fun _ => by decide,
    hothers 2 (by decide), hends _ (by decide)⟩

end Store

end Muster
