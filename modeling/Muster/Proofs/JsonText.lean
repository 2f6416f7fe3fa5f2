import Muster.Proofs.JsonGrammar

/-! What is written for a value is a text of that value, and so reads back as it. -/

namespace Muster.Json

mutual

/-- Integers have 64 bits, there are no other numbers, and strings can be read. -/
def Plain : Json → Prop
  | .number (.int i) => -0x8000000000000000 ≤ i ∧ i < 0x10000000000000000
  | .number (.decimal ..) => False
  | .text t => t.isSome = true
  | .array vs => PlainItems vs
  | .object ms => PlainMembers ms
  | _ => True

def PlainItems : List Json → Prop
  | [] => True
  | v :: vs => Plain v ∧ PlainItems vs

def PlainMembers : List (Literal × Json) → Prop
  | [] => True
  | (n, v) :: ms => n.isSome = true ∧ Plain v ∧ PlainMembers ms

end

theorem plain_int {i : Int} (h : Text.fits64 i = true) : (int i).Plain := by
  have hi : -0x8000000000000000 ≤ i ∧ i < 0x8000000000000000 := by simpa [Text.fits64] using h
  exact ⟨hi.1, by omega⟩

theorem plain_str (s : String) : (str s).Plain := rfl

theorem plain_list {α : Type} {f : α → Json} {as : List α} (h : ∀ a ∈ as, (f a).Plain) : (list f as).Plain := by
  rw [list, Plain]
  induction as with
  | nil => trivial
  | cons a as ih => exact ⟨h a (by simp), ih fun b hb => h b (by simp [hb])⟩

theorem plain_record {ms : List (String × Json)} (h : ∀ m ∈ ms, m.2.Plain) : (record ms).Plain := by
  rw [record, Plain]
  induction ms with
  | nil => trivial
  | cons m ms ih => exact ⟨rfl, h m (by simp), ih fun n hn => h n (by simp [hn])⟩

/-! The text of a word -/

theorem code_escapeChar (c : Char) : Code (escapeChar c) c.toNat := by
  rw [escapeChar.eq_def]
  split
  · exact .escape (by decide)
  · exact .escape (by decide)
  · exact .escape (by decide)
  · exact .escape (by decide)
  · exact .escape (by decide)
  · rename_i hquote hslash _ _ _
    split
    · rename_i h8
      rw [h8]
      exact .escape (by decide)
    · split
      · rename_i h12
        rw [h12]
        exact .escape (by decide)
      · split
        · have hzero : Text.HexDigit '0' 0 := ⟨by decide, .inl rfl⟩
          have hhigh : Text.HexDigit (Nat.digitChar (c.toNat / 16)) (c.toNat / 16) := ⟨by omega, .inl rfl⟩
          have hlow : Text.HexDigit (Nat.digitChar (c.toNat % 16)) (c.toNat % 16) := ⟨by omega, .inl rfl⟩
          have hcode := Code.hex hzero hzero hhigh hlow
          have hvalue : ((0 * 16 + 0) * 16 + c.toNat / 16) * 16 + c.toNat % 16 = c.toNat := by omega
          rwa [hvalue] at hcode
        · exact .plain hquote hslash (by omega)

theorem codes_flatMap (cs : List Char) : Codes (cs.flatMap escapeChar) (cs.map Char.toNat) := by
  induction cs with
  | nil => exact .nil
  | cons c cs ih => exact .cons (code_escapeChar c) ih

theorem codesOf_toNat (cs : List Char) : CodesOf (cs.map Char.toNat) cs := by
  induction cs with
  | nil => exact .nil
  | cons c cs ih => exact .whole ih

theorem literalText_write {t : Literal} (h : t.isSome = true) : LiteralText t (writeLiteral t) := by
  obtain ⟨s, rfl⟩ := Option.isSome_iff_exists.1 h
  exact .readable (codes_flatMap s.toList) (codesOf_toNat s.toList)

theorem numberText_whole (negative : Bool) (n : Nat) :
    NumberText (.ofParts negative n none none) (sign negative ++ writeNat n) := by
  have hdigits : Text.Decimal (writeNat n ++ (none : Option (List Char)).getD []) n := by
    simpa using decimal_writeNat n
  simpa using @NumberText.parts negative n n _ _ _ _ .none .none hdigits

theorem numberText_writeInt {i : Int} (h : -0x8000000000000000 ≤ i) (h' : i < 0x10000000000000000) :
    NumberText (.int i) (writeInt i) := by
  rw [writeInt]
  split
  · have htext := numberText_whole true i.natAbs
    have hfits : 0 < i.natAbs ∧ i.natAbs ≤ 2 ^ 63 := by omega
    rw [Number.ofParts, if_pos rfl, if_pos hfits, Int.ofNat_natAbs_of_nonpos (by omega), Int.neg_neg] at htext
    exact htext
  · have htext := numberText_whole false i.natAbs
    have hfits : i.natAbs < 2 ^ 64 := by omega
    rw [Number.ofParts, if_neg Bool.false_ne_true, if_pos hfits, Int.natAbs_of_nonneg (by omega)] at htext
    exact htext

/-! The text of a value -/

theorem WordsText.word {ts : List Token} {t : Token} {cs ds : List Char} (ht : WordText t cs)
    (h : WordsText ts ds) : WordsText (t :: ts) (cs ++ ds) :=
  .cons (List.nil_subset blanks) ht h

mutual

theorem wordsText_writeChars (j : Json) (h : j.Plain) {ts : List Token} {cs : List Char}
    (hrest : WordsText ts cs) : WordsText (j.words ++ ts) (j.writeChars ++ cs) := by
  match j with
  | .null => exact .word .null hrest
  | .bool true => exact .word .true hrest
  | .bool false => exact .word .false hrest
  | .number (.int i) => exact .word (.number (numberText_writeInt h.1 h.2)) hrest
  | .text t => exact .word (.text (literalText_write h)) hrest
  | .array [] => simpa [words, writeChars] using (hrest.word .closeArray).word .openArray
  | .array (v :: vs) =>
    have hv := wordsText_writeChars v h.1 (wordsText_writeItems vs h.2 hrest)
    simpa [words, writeChars] using hv.word .openArray
  | .object [] => simpa [words, writeChars] using (hrest.word .closeObject).word .openObject
  | .object ((n, v) :: ms) =>
    have hv := wordsText_writeChars v h.2.1 (wordsText_writeMembers ms h.2.2 hrest)
    simpa [words, writeChars, writeMember] using
      ((hv.word .colon).word (.text (literalText_write h.1))).word .openObject

theorem wordsText_writeItems (vs : List Json) (h : PlainItems vs) {ts : List Token} {cs : List Char}
    (hrest : WordsText ts cs) : WordsText (itemWords vs ++ ts) (writeItems vs ++ cs) := by
  match vs with
  | [] => exact .word .closeArray hrest
  | v :: vs =>
    have hv := wordsText_writeChars v h.1 (wordsText_writeItems vs h.2 hrest)
    simpa [itemWords, writeItems] using hv.word .comma

theorem wordsText_writeMembers (ms : List (Literal × Json)) (h : PlainMembers ms) {ts : List Token}
    {cs : List Char} (hrest : WordsText ts cs) :
    WordsText (memberWords ms ++ ts) (writeMembers ms ++ cs) := by
  match ms with
  | [] => exact .word .closeObject hrest
  | (n, v) :: ms =>
    have hv := wordsText_writeChars v h.2.1 (wordsText_writeMembers ms h.2.2 hrest)
    simpa [memberWords, writeMembers, writeMember] using
      ((hv.word .colon).word (.text (literalText_write h.1))).word .comma

end

/-- What is written for a value is one of its texts. -/
theorem spelt_write {j : Json} (h : j.Plain) : j.Spelt j.write := by
  rw [Spelt, write, String.toList_ofList]
  simpa using wordsText_writeChars j h (.nil (List.nil_subset blanks))

theorem read?_write {j : Json} (h : j.Plain) : read? j.write = some j := (spelt_write h).read?

end Muster.Json
