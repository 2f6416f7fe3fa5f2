import Muster.Login.Identity
import Muster.Proofs.Numerals
import Muster.Proofs.Pieces

/-! The subjects that name a character are those with the prefix of characters and a signed number of
64 bits after it. All others are refused with their text. -/

namespace Muster

def SubjectOf (subject : String) (id : Int) : Prop :=
  ∃ number : String, subject = "CHARACTER:EVE:" ++ number ∧ Text.Signed64 number.toList id

theorem pieces_subject_iff {subject number : String} :
    (Text.pieces ':' subject.toList).map String.ofList = ["CHARACTER", "EVE", number] ↔
      subject = "CHARACTER:EVE:" ++ number ∧ ':' ∉ number.toList := by
  have hpieces (ps : List (List Char)) : ps.map String.ofList = ["CHARACTER", "EVE", number] ↔
      ps = ["CHARACTER".toList, "EVE".toList, number.toList] := by
    constructor
    · intro h
      simpa using congrArg (List.map String.toList) h
    · rintro rfl
      simp
  have hbegin : "CHARACTER:EVE:".toList = "CHARACTER".toList ++ [':'] ++ ("EVE".toList ++ [':']) := by
    decide
  have hjoined : [':'].intercalate ["CHARACTER".toList, "EVE".toList, number.toList] =
      ("CHARACTER:EVE:" ++ number).toList := by
    rw [List.intercalate_cons_cons, List.intercalate_cons_cons, List.intercalate_singleton,
      String.toList_append, hbegin]
    simp only [List.append_assoc]
  rw [hpieces, Text.pieces_eq_iff, hjoined, String.toList_inj]
  simp only [List.forall_mem_cons]
  constructor
  · rintro ⟨-, ⟨-, -, hnumber, -⟩, hsubject⟩
    exact ⟨hsubject.symm, hnumber⟩
  · rintro ⟨hsubject, hnumber⟩
    exact ⟨List.cons_ne_nil _ _, ⟨by decide, by decide, hnumber, nofun⟩, hsubject.symm⟩

theorem readSubject_eq_ok_iff {subject : String} {id : Int} :
    readSubject subject = .ok id ↔
      ∃ number : String, subject = "CHARACTER:EVE:" ++ number ∧ Text.readInt64 number.toList = some id := by
  constructor
  · intro h
    rw [readSubject] at h
    split at h
    · rename_i number hpieces
      split at h
      · rename_i hread
        cases h
        exact ⟨number, (pieces_subject_iff.1 hpieces).1, hread⟩
      · cases h
    · cases h
  · rintro ⟨number, hsubject, hread⟩
    have hcolon : ':' ∉ number.toList := fun hmem => by
      obtain h | h | ⟨d, hd, h⟩ := (Text.readInt64_eq_some_iff.1 hread).1.chars hmem
      · exact absurd h (by decide)
      · exact absurd h (by decide)
      · have hdigit : ∀ d ≤ 9, ':' ≠ Nat.digitChar d := by decide
        exact hdigit d hd h
    simp [readSubject, pieces_subject_iff.2 ⟨hsubject, hcolon⟩, hread]

theorem readSubject_error {subject : String} {e : AuthError} (h : readSubject subject = .error e) :
    e = .invalidSubject subject := by
  rw [readSubject] at h
  split at h
  · split at h <;> cases h
    rfl
  · cases h
    rfl

/-- A subject names a character just when it is the prefix of characters with a signed decimal number of
64 bits after it, and the character is the one of that number; any other subject is refused with its whole
text. So each number that has 64 bits is read as it is written, and no other number is. -/
theorem subjects_are_prefixed_numbers (subject : String) :
    (∀ id, readSubject subject = .ok id ↔ SubjectOf subject id) ∧
    (∀ e, readSubject subject = .error e ↔ e = .invalidSubject subject ∧ ¬∃ id, SubjectOf subject id) ∧
    ∀ i : Int, readSubject ("CHARACTER:EVE:" ++ toString i) =
      if -2 ^ 63 ≤ i ∧ i < 2 ^ 63 then .ok i
      else .error (.invalidSubject ("CHARACTER:EVE:" ++ toString i)) := by
  have hok {subject : String} {id : Int} : readSubject subject = .ok id ↔ SubjectOf subject id := by
    simp only [readSubject_eq_ok_iff, SubjectOf, Text.readInt64_eq_some_iff]
  refine ⟨fun id => hok, fun e => ⟨fun h => ⟨readSubject_error h, ?_⟩, ?_⟩, fun i => ?_⟩
  · rintro ⟨id, hid⟩
    cases h.symm.trans (hok.2 hid)
  · rintro ⟨rfl, hnone⟩
    cases h : readSubject subject with
    | ok id => exact absurd ⟨id, hok.1 h⟩ hnone
    | error e => rw [readSubject_error h]
  · have hwritten := Text.readSigned_eq_some_iff.1 (Text.readSigned_toString i)
    split
    · rename_i hfits
      exact hok.2 ⟨toString i, rfl, hwritten, hfits⟩
    · rename_i hfits
      cases h : readSubject ("CHARACTER:EVE:" ++ toString i) with
      | error e => rw [readSubject_error h]
      | ok id =>
        -- The text after the prefix is read as one number only, and that is the one it was written for.
        obtain ⟨number, heq, hread⟩ := readSubject_eq_ok_iff.1 h
        obtain rfl : toString i = number := (String.append_right_inj _).1 heq
        rw [Text.readInt64, Text.readSigned_toString, Option.filter_eq_some_iff] at hread
        obtain ⟨rfl, hid⟩ : i = id ∧ Text.fits64 id = true := by simpa using hread
        exact absurd (by simpa [Text.fits64] using hid) hfits

end Muster
