import Mathlib.Data.List.TakeWhile
import Muster.Json.Reader
import Muster.Json.Writer
import Muster.Proofs.Numerals

/-! The grammar of JSON texts, apart from how they are read: a text is made of the words of its value, with
blanks between them. Every text of a value is read as that value. -/

namespace Muster.Json

/-! The grammar -/

mutual

def words : Json → List Token
  | .text t => [.text t]
  | .array [] => [.openArray, .closeArray]
  | .array (v :: vs) => .openArray :: (words v ++ itemWords vs)
  | .object [] => [.openObject, .closeObject]
  | .object ((n, v) :: ms) => .openObject :: .text n :: .colon :: (words v ++ memberWords ms)
  | j => [.scalar j]

def itemWords : List Json → List Token
  | [] => [.closeArray]
  | v :: vs => .comma :: (words v ++ itemWords vs)

def memberWords : List (Literal × Json) → List Token
  | [] => [.closeObject]
  | (n, v) :: ms => .comma :: .text n :: .colon :: (words v ++ memberWords ms)

end

def blanks : List Char := [' ', '\n', '\t', '\r']

def escapes : List (Char × Nat) :=
  [('"', 0x22), ('\\', 0x5C), ('/', 0x2F), ('b', 8), ('f', 12), ('n', 10), ('r', 13), ('t', 9)]

inductive Code : List Char → Nat → Prop
  | plain {c : Char} : c ≠ '"' → c ≠ '\\' → 0x20 ≤ c.toNat → Code [c] c.toNat
  | escape {c : Char} {n : Nat} : (c, n) ∈ escapes → Code ['\\', c] n
  | hex {c d e f : Char} {k l m n : Nat} : Text.HexDigit c k → Text.HexDigit d l → Text.HexDigit e m →
    Text.HexDigit f n → Code ['\\', 'u', c, d, e, f] (((k * 16 + l) * 16 + m) * 16 + n)

inductive Codes : List Char → List Nat → Prop
  | nil : Codes [] []
  | cons {cs ds : List Char} {n : Nat} {ns : List Nat} : Code cs n → Codes ds ns → Codes (cs ++ ds) (n :: ns)

/-- The characters that codes are of: the two halves of a surrogate pair are one character. -/
inductive CodesOf : List Nat → List Char → Prop
  | nil : CodesOf [] []
  | whole {c : Char} {ns : List Nat} {cs : List Char} : CodesOf ns cs → CodesOf (c.toNat :: ns) (c :: cs)
  | halves {high low : Nat} {c : Char} {ns : List Nat} {cs : List Char} : 0xD800 ≤ high → high < 0xDC00 →
    0xDC00 ≤ low → low < 0xE000 → c.toNat = 0x10000 + (high - 0xD800) * 0x400 + (low - 0xDC00) →
    CodesOf ns cs → CodesOf (high :: low :: ns) (c :: cs)

/-- A string literal, of characters or of codes that are not those of characters. -/
inductive LiteralText : Literal → List Char → Prop
  | readable {s : String} {cs : List Char} {ns : List Nat} : Codes cs ns → CodesOf ns s.toList →
    LiteralText (some s) ('"' :: (cs ++ ['"']))
  | unreadable {cs : List Char} {ns : List Nat} : Codes cs ns → (∀ ds, ¬CodesOf ns ds) →
    LiteralText none ('"' :: (cs ++ ['"']))

def sign (negative : Bool) : List Char := if negative then ['-'] else []

inductive FractionText : Option (List Char) → List Char → Prop
  | none : FractionText none []
  | some {ds : List Char} {n : Nat} : Text.Decimal ds n → FractionText (some ds) ('.' :: ds)

inductive ExponentText : Option Int → List Char → Prop
  | none : ExponentText none []
  | some {e : Char} {ds : List Char} {i : Int} : e = 'e' ∨ e = 'E' → Text.Signed ds i →
    ExponentText (some i) (e :: ds)

def Number.ofParts (negative : Bool) (digits : Nat) : Option (List Char) → Option Int → Number
  | none, none =>
    if negative then
      if 0 < digits ∧ digits ≤ 2 ^ 63 then .int (-digits) else .decimal true digits 0
    else if digits < 2 ^ 64 then .int digits else .decimal false digits 0
  | fraction, exponent => .decimal negative digits (exponent.getD 0 - ((fraction.getD []).length : Int))

/-- A whole number without a superfluous zero in front, with its sign, fraction and exponent. -/
inductive NumberText : Number → List Char → Prop
  | parts {negative : Bool} {whole digits : Nat} {fraction : Option (List Char)} {exponent : Option Int}
    {point power : List Char} : FractionText fraction point → ExponentText exponent power →
    Text.Decimal (writeNat whole ++ fraction.getD []) digits →
    NumberText (.ofParts negative digits fraction exponent)
      (sign negative ++ (writeNat whole ++ (point ++ power)))

inductive WordText : Token → List Char → Prop
  | openArray : WordText .openArray ['[']
  | closeArray : WordText .closeArray [']']
  | openObject : WordText .openObject ['{']
  | closeObject : WordText .closeObject ['}']
  | comma : WordText .comma [',']
  | colon : WordText .colon [':']
  | null : WordText (.scalar .null) ['n', 'u', 'l', 'l']
  | true : WordText (.scalar (.bool true)) ['t', 'r', 'u', 'e']
  | false : WordText (.scalar (.bool false)) ['f', 'a', 'l', 's', 'e']
  | number {n : Number} {cs : List Char} : NumberText n cs → WordText (.scalar (.number n)) cs
  | text {t : Literal} {cs : List Char} : LiteralText t cs → WordText (.text t) cs

/-- Words with any blanks before and after each. -/
inductive WordsText : List Token → List Char → Prop
  | nil {bs : List Char} : bs ⊆ blanks → WordsText [] bs
  | cons {bs cs ds : List Char} {t : Token} {ts : List Token} : bs ⊆ blanks → WordText t cs →
    WordsText ts ds → WordsText (t :: ts) (bs ++ (cs ++ ds))

def Spelt (j : Json) (text : String) : Prop := WordsText j.words text.toList

/-! From characters to words -/

theorem tokensFrom_cons {s next : Scan} {c : Char} {ts : List Token}
    (h : s.step c = some (ts, next)) (cs : List Char) :
    tokensFrom s (c :: cs) = (tokensFrom next cs).map (ts ++ ·) := by
  rw [tokensFrom, h]
  cases hc : tokensFrom next cs <;> simp [hc]

theorem tokensFrom_silent {s : Scan} (next : Scan) {c : Char} (h : s.step c = some ([], next))
    (cs : List Char) : tokensFrom s (c :: cs) = tokensFrom next cs := by
  rw [tokensFrom_cons h]
  cases tokensFrom next cs <;> rfl

theorem tokensFrom_blanks {bs : List Char} (h : bs ⊆ blanks) (rest : List Char) :
    tokensFrom .between (bs ++ rest) = tokensFrom .between rest := by
  induction bs with
  | nil => rfl
  | cons b bs ih =>
    have hstep : ∀ b ∈ blanks, Scan.step b .between = some ([], .between) := by
      simp [blanks, Scan.step, Scan.start]
    obtain ⟨hb, hbs⟩ := List.cons_subset.1 h
    rw [List.cons_append, tokensFrom_silent _ (hstep b hb), ih hbs]

theorem tokensFrom_code {cs : List Char} {n : Nat} (h : Code cs n) (seen : List Nat) (rest : List Char) :
    tokensFrom (.quoted seen) (cs ++ rest) = tokensFrom (.quoted (n :: seen)) rest := by
  have hslash (rest : List Char) : tokensFrom (.quoted seen) ('\\' :: rest) = tokensFrom (.escaped seen) rest :=
    tokensFrom_silent _ (by simp [Scan.step]) rest
  cases h with
  | plain hquote hback hprint =>
    have hprint := Nat.not_lt.2 hprint
    exact tokensFrom_silent _ (by simp [Scan.step, hquote, hback, hprint]) rest
  | @escape c n hescape =>
    have hstep : ∀ e ∈ escapes, Scan.step e.1 (.escaped seen) = some ([], .quoted (e.2 :: seen)) := by
      simp [escapes, Scan.step, escapeValue]
    exact (hslash (c :: rest)).trans (tokensFrom_silent _ (hstep _ hescape) rest)
  | hex hc hd he hf =>
    have hc := Text.digitValue_hex_eq_some_iff.2 hc
    have hd := Text.digitValue_hex_eq_some_iff.2 hd
    have he := Text.digitValue_hex_eq_some_iff.2 he
    have hf := Text.digitValue_hex_eq_some_iff.2 hf
    simp only [List.cons_append, List.nil_append]
    rw [hslash, tokensFrom_silent (.code seen 3 0) (by simp [Scan.step]),
      tokensFrom_silent _ (by simp [Scan.step, hc]; rfl), tokensFrom_silent _ (by simp [Scan.step, hd]; rfl),
      tokensFrom_silent _ (by simp [Scan.step, he]; rfl), tokensFrom_silent _ (by simp [Scan.step, hf]; rfl)]

theorem Codes.lt {cs : List Char} {ns : List Nat} (h : Codes cs ns) : ∀ n ∈ ns, n < 0x110000 := by
  induction h with
  | nil => exact nofun
  | cons hcode _ ih =>
    refine List.forall_mem_cons.2 ⟨?_, ih⟩
    cases hcode with
    | @plain c _ _ _ =>
      have hc : c.toNat < 0xD800 ∨ 0xDFFF < c.toNat ∧ c.toNat < 0x110000 := c.valid
      omega
    | escape hescape =>
      have hsmall : ∀ e ∈ escapes, e.2 < 0x110000 := by decide
      exact hsmall _ hescape
    | hex hc hd he hf =>
      have := hc.1
      have := hd.1
      have := he.1
      have := hf.1
      omega

theorem joinPairs_whole (c : Char) (ns : List Nat) :
    joinPairs (c.toNat :: ns) = (joinPairs ns).map (c :: ·) := by
  have hc : c.toNat < 0xD800 ∨ 0xDFFF < c.toNat ∧ c.toNat < 0x110000 := c.valid
  have hhigh : ¬(0xD800 ≤ c.toNat ∧ c.toNat < 0xDC00) := by omega
  have hlow : ¬(0xDC00 ≤ c.toNat ∧ c.toNat < 0xE000) := by omega
  rw [joinPairs.eq_def]
  simp [hhigh, hlow, Char.ofNat_toNat]

theorem joinPairs_halves {high low : Nat} (h₁ : 0xD800 ≤ high) (h₂ : high < 0xDC00) (h₃ : 0xDC00 ≤ low)
    (h₄ : low < 0xE000) (ns : List Nat) : joinPairs (high :: low :: ns) =
      (joinPairs ns).map (Char.ofNat (0x10000 + (high - 0xD800) * 0x400 + (low - 0xDC00)) :: ·) := by
  rw [joinPairs.eq_def]
  simp [h₁, h₂, h₃, h₄]

theorem toNat_ofNat {n : Nat} (h : n.isValidChar) : (Char.ofNat n).toNat = n := by
  rw [Char.ofNat, dif_pos h]
  rfl

theorem joinPairs_eq_some_iff {ns : List Nat} (h : ∀ n ∈ ns, n < 0x110000) {cs : List Char} :
    joinPairs ns = some cs ↔ CodesOf ns cs := by
  constructor
  · intro hjoin
    fun_induction joinPairs ns generalizing cs with
    | case1 =>
      cases hjoin
      exact .nil
    | case2 high hhigh low lows hlow ih =>
      obtain ⟨ds, hds, rfl⟩ := Option.map_eq_some_iff.1 hjoin
      refine .halves hhigh.1 hhigh.2 hlow.1 hlow.2 ?_ (ih (fun n hn => h n (by simp [hn])) hds)
      exact toNat_ofNat (.inr (by omega))
    | case3 | case4 | case5 => cases hjoin
    | case6 n ns hhigh hlow ih =>
      obtain ⟨ds, hds, rfl⟩ := Option.map_eq_some_iff.1 hjoin
      have hn : n < 0x110000 := h n (by simp)
      have hvalid : n.isValidChar := by
        rw [Nat.isValidChar]
        omega
      have hwhole := CodesOf.whole (c := Char.ofNat n) (ih (fun n hn => h n (by simp [hn])) hds)
      rwa [toNat_ofNat hvalid] at hwhole
  · intro hcodes
    induction hcodes with
    | nil => rfl
    | whole _ ih => rw [joinPairs_whole, ih fun n hn => h n (by simp [hn]), Option.map_some]
    | @halves _ _ c _ _ h₁ h₂ h₃ h₄ hc _ ih =>
      rw [joinPairs_halves h₁ h₂ h₃ h₄, ih fun n hn => h n (by simp [hn]), Option.map_some, ← hc,
        Char.ofNat_toNat]

theorem tokensFrom_codes {cs : List Char} {ns : List Nat} (h : Codes cs ns) (seen : List Nat)
    (rest : List Char) : tokensFrom (.quoted seen) (cs ++ '"' :: rest) =
      (tokensFrom .between rest).map (quotedToken (ns.reverse ++ seen) :: ·) := by
  induction h generalizing seen with
  | nil =>
    have h : Scan.step '"' (.quoted seen) = some ([quotedToken seen], .between) := by simp [Scan.step]
    exact tokensFrom_cons h rest
  | cons hcode _ ih =>
    rw [List.append_assoc, tokensFrom_code hcode, ih]
    simp

theorem tokensFrom_literal {t : Literal} {cs : List Char} (h : LiteralText t cs) (rest : List Char) :
    tokensFrom .between (cs ++ rest) = (tokensFrom .between rest).map (.text t :: ·) := by
  have hquoted {cs : List Char} {ns : List Nat} (hcodes : Codes cs ns)
      (ht : (joinPairs ns).map String.ofList = t) :
      tokensFrom .between ('"' :: (cs ++ ['"']) ++ rest) =
        (tokensFrom .between rest).map (.text t :: ·) := by
    rw [List.cons_append, tokensFrom_silent (.quoted []) rfl, List.append_assoc, List.singleton_append,
      tokensFrom_codes hcodes, quotedToken, List.append_nil, List.reverse_reverse, ht]
  cases h with
  | readable hcodes hchars =>
    refine hquoted hcodes ?_
    rw [(joinPairs_eq_some_iff hcodes.lt).2 hchars, Option.map_some, String.ofList_toList]
  | unreadable hcodes hnone =>
    refine hquoted hcodes ?_
    rw [Option.eq_none_iff_forall_ne_some.2 fun ds hds => hnone ds ((joinPairs_eq_some_iff hcodes.lt).1 hds),
      Option.map_none]

/-! Numbers -/

theorem between_of_decimal {cs : List Char} {n : Nat} (h : Text.Decimal cs n) {c : Char} (hc : c ∈ cs) :
    ('0' ≤ c && c ≤ '9') = true := by
  have hdigit : ∀ d ≤ 9, ('0' ≤ Nat.digitChar d && Nat.digitChar d ≤ '9') = true := by decide
  obtain ⟨d, hd, rfl⟩ := h.digits hc
  exact hdigit d hd

theorem decimal_writeNat (n : Nat) : Text.Decimal (writeNat n) n :=
  Text.readNat_eq_some_iff.1 (Text.readNat_toDigits n)

theorem span_decimal {ds rest : List Char} {n : Nat} (h : Text.Decimal ds n)
    (hrest : ∀ c ∈ rest.head?, ('0' ≤ c && c ≤ '9') = false) :
    (ds ++ rest).takeWhile (fun c => '0' ≤ c && c ≤ '9') = ds ∧
      (ds ++ rest).dropWhile (fun c => '0' ≤ c && c ≤ '9') = rest := by
  have hds (c : Char) (hc : c ∈ ds) : ('0' ≤ c && c ≤ '9') = true := between_of_decimal h hc
  rw [List.takeWhile_append_of_pos hds, List.dropWhile_append_of_pos hds]
  cases rest with
  | nil => simp
  | cons c cs => simp [hrest c rfl]

theorem lone_zero (n : Nat) : ((writeNat n).length > 1 && (writeNat n).head? == some '0') = false := by
  by_cases hn : n = 0
  · subst hn
    rfl
  · have hz : ((writeNat n).head? == some '0') = false := beq_false_of_ne (Text.head?_toDigits n hn)
    rw [hz, Bool.and_false]

theorem isEmpty_writeNat (n : Nat) : (writeNat n).isEmpty = false := by
  simp [writeNat]

theorem FractionText.head {fraction : Option (List Char)} {point : List Char} (h : FractionText fraction point)
    {c : Char} (hc : c ∈ point.head?) : ('0' ≤ c && c ≤ '9') = false := by
  cases h with
  | none => cases hc
  | some _ =>
    obtain rfl : _ = c := by simpa using hc
    decide

theorem ExponentText.head {exponent : Option Int} {power : List Char} (h : ExponentText exponent power)
    {c : Char} (hc : c ∈ power.head?) : ('0' ≤ c && c ≤ '9') = false := by
  cases h with
  | none => cases hc
  | some he _ =>
    obtain rfl : _ = c := by simpa using hc
    obtain rfl | rfl := he <;> decide

theorem decimal_ne_sign {ds : List Char} {n : Nat} (h : Text.Decimal ds n) (cs : List Char) : ds ≠ '-' :: cs := by
  rintro rfl
  exact absurd (between_of_decimal h (List.mem_cons_self ..)) (by decide)

theorem exists_cons_writeNat (n : Nat) : ∃ c cs, writeNat n = c :: cs :=
  List.exists_cons_of_ne_nil Nat.toDigits_ne_nil

theorem writeNat_append_ne_sign (n : Nat) (rest cs : List Char) : writeNat n ++ rest ≠ '-' :: cs := by
  obtain ⟨d, ds, hd⟩ := exists_cons_writeNat n
  have hsign := decimal_ne_sign (decimal_writeNat n) ds
  rw [hd] at hsign ⊢
  simp_all

theorem read?_parts {negative : Bool} {whole digits : Nat} {fraction : Option (List Char)}
    {exponent : Option Int} {point power : List Char} (hpoint : FractionText fraction point)
    (hpower : ExponentText exponent power)
    (hdigits : Text.Decimal (writeNat whole ++ fraction.getD []) digits) :
    Number.read? (sign negative ++ (writeNat whole ++ (point ++ power))) =
      some (.ofParts negative digits fraction exponent) := by
  have hread := Text.readNat_eq_some_iff.2 hdigits
  have hsign := writeNat_append_ne_sign whole (point ++ power)
  have hends : ∀ c ∈ (point ++ power).head?, ('0' ≤ c && c ≤ '9') = false := by
    intro c hc
    rw [List.head?_append] at hc
    obtain hc | ⟨-, hc⟩ := Option.or_eq_some_iff.1 hc
    · exact hpoint.head hc
    · exact hpower.head hc
  have hspan := span_decimal (decimal_writeNat whole) hends
  cases hpoint with
  | none =>
    cases hpower with
    | none =>
      simp only [List.append_nil, Option.getD_none] at hspan hread hsign ⊢
      cases negative <;>
        simp [Number.read?, sign, hspan, lone_zero, isEmpty_writeNat, hread, Number.ofParts] <;>
        exact (apply_ite some _ _ _).symm
    | @some e ds i he hi =>
      have hsigned := Text.readSigned_eq_some_iff.2 hi
      simp only [List.nil_append, Option.getD_none, List.append_nil] at hspan hread hsign ⊢
      obtain rfl | rfl := he <;> cases negative <;>
        simp [Number.read?, sign, hspan, lone_zero, isEmpty_writeNat, hread, hsigned, Number.ofParts]
  | @some fs n hfs =>
    have hfraction := span_decimal hfs fun _ => hpower.head
    have hempty : fs.isEmpty = false := by
      obtain ⟨ds, hne, -, rfl, -⟩ := hfs
      simpa using hne
    cases hpower with
    | none =>
      simp only [List.append_nil, Option.getD_some] at hspan hread hsign hfraction ⊢
      cases negative <;>
        simp [Number.read?, sign, hspan, lone_zero, isEmpty_writeNat, hread, hfraction, hempty, Number.ofParts]
    | @some e ds i he hi =>
      have hsigned := Text.readSigned_eq_some_iff.2 hi
      simp only [List.cons_append, Option.getD_some] at hspan hread hsign hfraction ⊢
      obtain rfl | rfl := he <;> cases negative <;>
        simp [Number.read?, sign, hspan, lone_zero, isEmpty_writeNat, hread, hsigned, hfraction, hempty,
          Number.ofParts]

theorem isNumberChar_of_decimal {ds : List Char} {n : Nat} (h : Text.Decimal ds n) {c : Char} (hc : c ∈ ds) :
    isNumberChar c = true := by
  simp [isNumberChar, between_of_decimal h hc]

theorem FractionText.chars {fraction : Option (List Char)} {point : List Char}
    (h : FractionText fraction point) {c : Char} (hc : c ∈ point) : isNumberChar c = true := by
  cases h with
  | none => cases hc
  | some hds =>
    obtain rfl | hc := List.mem_cons.1 hc
    · rfl
    · exact isNumberChar_of_decimal hds hc

theorem ExponentText.chars {exponent : Option Int} {power : List Char} (h : ExponentText exponent power)
    {c : Char} (hc : c ∈ power) : isNumberChar c = true := by
  cases h with
  | none => cases hc
  | some he hi =>
    obtain rfl | hc := List.mem_cons.1 hc
    · obtain rfl | rfl := he <;> rfl
    · have hdigit : ∀ d ≤ 9, isNumberChar (Nat.digitChar d) = true := by decide
      obtain rfl | rfl | ⟨d, hd, rfl⟩ := hi.chars hc
      · rfl
      · rfl
      · exact hdigit d hd

theorem step_of_digit {c : Char} (h : ('0' ≤ c && c ≤ '9') = true) :
    Scan.step c .between = some ([], .number [c]) := by
  rw [Scan.step, Scan.start.eq_def]
  split <;> simp_all

theorem NumberText.chars {n : Number} {cs : List Char} (h : NumberText n cs) :
    (∀ c ∈ cs, isNumberChar c = true) ∧
      ∃ c ds, cs = c :: ds ∧ Scan.step c .between = some ([], .number [c]) := by
  obtain @⟨negative, whole, digits, fraction, exponent, point, power, hpoint, hpower, -⟩ := h
  have hwhole (c : Char) (hc : c ∈ writeNat whole) := isNumberChar_of_decimal (decimal_writeNat whole) hc
  refine ⟨fun c hc => ?_, ?_⟩
  · simp only [List.mem_append] at hc
    obtain hc | hc | hc | hc := hc
    · cases negative <;> simp_all [sign, isNumberChar]
    · exact hwhole c hc
    · exact hpoint.chars hc
    · exact hpower.chars hc
  · cases negative with
    | true => exact ⟨'-', _, rfl, rfl⟩
    | false =>
      obtain ⟨d, ds, hd⟩ := exists_cons_writeNat whole
      rw [hd] at hwhole ⊢
      exact ⟨d, _, rfl, step_of_digit (between_of_decimal (decimal_writeNat whole) (hd ▸ List.mem_cons_self ..))⟩

/-- What can follow a name or a number: no character that goes on with it. -/
def Apart (rest : List Char) : Prop := ∀ c ∈ rest.head?, isNumberChar c = false ∧ isWordChar c = false

theorem tokensFrom_number {cs : List Char} (h : ∀ c ∈ cs, isNumberChar c = true) (seen rest : List Char) :
    tokensFrom (.number seen) (cs ++ rest) = tokensFrom (.number (cs.reverse ++ seen)) rest := by
  induction cs generalizing seen with
  | nil => rfl
  | cons c cs ih =>
    have hc := h c (by simp)
    rw [List.cons_append, tokensFrom_silent (.number (c :: seen)) (by simp [Scan.step, hc]),
      ih fun d hd => h d (by simp [hd])]
    simp

theorem tokensFrom_letters {cs : List Char} (h : ∀ c ∈ cs, isWordChar c = true) (seen rest : List Char) :
    tokensFrom (.word seen) (cs ++ rest) = tokensFrom (.word (cs.reverse ++ seen)) rest := by
  induction cs generalizing seen with
  | nil => rfl
  | cons c cs ih =>
    have hc := h c (by simp)
    rw [List.cons_append, tokensFrom_silent (.word (c :: seen)) (by simp [Scan.step, hc]),
      ih fun d hd => h d (by simp [hd])]
    simp

theorem tokensFrom_number_end {rest : List Char} (h : Apart rest) {seen : List Char} {t : Token}
    (ht : numberToken seen = some t) :
    tokensFrom (.number seen) rest = (tokensFrom .between rest).map (t :: ·) := by
  cases rest with
  | nil => simp [tokensFrom, Scan.finish, ht]
  | cons c cs =>
    obtain ⟨hc, -⟩ := h c rfl
    cases hstart : Scan.start c <;> simp [tokensFrom, Scan.step, hc, ht, hstart]

theorem tokensFrom_letters_end {rest : List Char} (h : Apart rest) {seen : List Char} {t : Token}
    (ht : wordToken seen = some t) :
    tokensFrom (.word seen) rest = (tokensFrom .between rest).map (t :: ·) := by
  cases rest with
  | nil => simp [tokensFrom, Scan.finish, ht]
  | cons c cs =>
    obtain ⟨-, hc⟩ := h c rfl
    cases hstart : Scan.start c <;> simp [tokensFrom, Scan.step, hc, ht, hstart]

theorem tokensFrom_numberText {n : Number} {cs rest : List Char} (h : NumberText n cs) (hr : Apart rest) :
    tokensFrom .between (cs ++ rest) = (tokensFrom .between rest).map (.scalar (.number n) :: ·) := by
  have hread : Number.read? cs = some n := by
    cases h with
    | parts hpoint hpower hdigits => exact read?_parts hpoint hpower hdigits
  obtain ⟨hchars, c, ds, rfl, hstep⟩ := h.chars
  have htoken : numberToken (ds.reverse ++ [c]) = some (.scalar (.number n)) := by
    rw [numberToken, List.reverse_append, List.reverse_reverse, List.reverse_singleton,
      List.singleton_append, hread, Option.map_some]
  rw [List.cons_append, tokensFrom_silent _ hstep, tokensFrom_number fun d hd => hchars d (by simp [hd]),
    tokensFrom_number_end hr htoken]

theorem tokensFrom_name {c : Char} {cs rest : List Char} {t : Token}
    (hstep : Scan.step c .between = some ([], .word [c])) (hcs : ∀ d ∈ cs, isWordChar d = true)
    (ht : wordToken (cs.reverse ++ [c]) = some t) (hr : Apart rest) :
    tokensFrom .between (c :: cs ++ rest) = (tokensFrom .between rest).map (t :: ·) := by
  rw [List.cons_append, tokensFrom_silent _ hstep, tokensFrom_letters hcs, tokensFrom_letters_end hr ht]

theorem tokensFrom_mark {c : Char} {t : Token} (h : Scan.step c .between = some ([t], .between))
    (rest : List Char) :
    tokensFrom .between ([c] ++ rest) = (tokensFrom .between rest).map (t :: ·) :=
  tokensFrom_cons h rest

theorem tokensFrom_word {t : Token} {cs rest : List Char} (h : WordText t cs)
    (hr : ∀ v, t = .scalar v → Apart rest) :
    tokensFrom .between (cs ++ rest) = (tokensFrom .between rest).map (t :: ·) := by
  cases h with
  | openArray | closeArray | openObject | closeObject | comma | colon => exact tokensFrom_mark rfl rest
  | null | true | false => exact tokensFrom_name rfl (by simp [isWordChar]) rfl (hr _ rfl)
  | number hn => exact tokensFrom_numberText hn (hr _ rfl)
  | text ht => exact tokensFrom_literal ht rest

/-! Words of values -/

/-- What can follow a value: nothing, or the end of an item or member or of what it is in. -/
def Ends : List Token → Prop
  | [] | .comma :: _ | .closeArray :: _ | .closeObject :: _ => True
  | _ => False

def Separated : List Token → Prop
  | [] => True
  | .scalar _ :: ts => Ends ts ∧ Separated ts
  | _ :: ts => Separated ts

theorem ends_itemWords (vs : List Json) (ts : List Token) : Ends (itemWords vs ++ ts) := by
  cases vs <;> trivial

theorem ends_memberWords (ms : List (Literal × Json)) (ts : List Token) : Ends (memberWords ms ++ ts) := by
  cases ms <;> trivial

mutual

theorem separated_words (j : Json) {ts : List Token} (he : Ends ts) (hs : Separated ts) :
    Separated (j.words ++ ts) := by
  match j with
  | .null | .bool _ | .number _ => exact ⟨he, hs⟩
  | .text _ | .array [] | .object [] => exact hs
  | .array (v :: vs) =>
    rw [words, List.cons_append, List.append_assoc]
    exact separated_words v (ends_itemWords vs ts) (separated_itemWords vs hs)
  | .object ((n, v) :: ms) =>
    simp only [words, List.cons_append, List.append_assoc]
    exact separated_words v (ends_memberWords ms ts) (separated_memberWords ms hs)

theorem separated_itemWords (vs : List Json) {ts : List Token} (hs : Separated ts) :
    Separated (itemWords vs ++ ts) := by
  match vs with
  | [] => exact hs
  | v :: vs =>
    rw [itemWords, List.cons_append, List.append_assoc]
    exact separated_words v (ends_itemWords vs ts) (separated_itemWords vs hs)

theorem separated_memberWords (ms : List (Literal × Json)) {ts : List Token} (hs : Separated ts) :
    Separated (memberWords ms ++ ts) := by
  match ms with
  | [] => exact hs
  | (n, v) :: ms =>
    simp only [memberWords, List.cons_append, List.append_assoc]
    exact separated_words v (ends_memberWords ms ts) (separated_memberWords ms hs)

end

theorem WordsText.apart {ts : List Token} {cs : List Char} (h : WordsText ts cs) (he : Ends ts) : Apart cs := by
  have hblank : ∀ b ∈ blanks, isNumberChar b = false ∧ isWordChar b = false := by
    simp [blanks, isNumberChar, isWordChar]
  cases h with
  | nil hbs => exact fun c hc => hblank c (hbs (List.mem_of_mem_head? hc))
  | @cons bs cs ds t ts hbs hword _ =>
    cases bs with
    | cons b bs =>
      intro c hc
      exact hblank c (hbs (by simp_all))
    | nil =>
      cases hword <;> simp_all [Ends, Apart, isNumberChar, isWordChar]

/-- Words are read from their text, whatever blanks are between them. -/
theorem tokensFrom_words {ts : List Token} {cs : List Char} (h : WordsText ts cs) (hs : Separated ts) :
    tokensFrom .between cs = some ts := by
  induction h with
  | nil hbs =>
    have hread := tokensFrom_blanks hbs []
    rwa [List.append_nil] at hread
  | @cons bs cs ds t ts hbs hword hrest ih =>
    have hapart (v : Json) (ht : t = .scalar v) : Apart ds := by
      subst ht
      exact hrest.apart hs.1
    have hs : Separated ts := by
      cases t with
      | scalar v => exact hs.2
      | _ => exact hs
    rw [tokensFrom_blanks hbs, tokensFrom_word hword hapart, ih hs, Option.map_some]

/-! From words to values -/

namespace Reader

theorem run_append (r : Reader) (ts us : List Token) :
    run r (ts ++ us) = (run r ts).bind (run · us) := by
  induction ts generalizing r with
  | nil => rfl
  | cons t ts ih =>
    rw [List.cons_append, run, run]
    cases r.step t with
    | none => rfl
    | some r => exact ih r

theorem run_firstItem (j : Json) (stack : List Unfinished) :
    run (.within stack .firstItem) j.words = run (.within stack .value) j.words := by
  match j with
  | .null | .bool _ | .number _ | .text _ | .array [] | .array (_ :: _) | .object []
  | .object (_ :: _) => rfl

mutual

theorem run_words (j : Json) (stack : List Unfinished) :
    run (.within stack .value) j.words = close j stack := by
  match j with
  | .null | .bool _ | .number _ | .text _ | .array [] | .object [] => exact Option.bind_fun_some _
  | .array (v :: vs) =>
    have hv := run_words v (.array [] :: stack)
    have hvs := run_itemWords vs [v] stack
    simp only [words, run, step, startValue, Option.bind_some, run_append, run_firstItem, hv, close,
      hvs, List.reverse_singleton, List.singleton_append]
  | .object ((n, v) :: ms) =>
    have hv := run_words v (.member [] n :: stack)
    have hms := run_memberWords ms [(n, v)] stack
    simp only [words, run, step, startValue, startMember, Option.bind_some, run_append, hv, close,
      hms, List.reverse_singleton, List.singleton_append]

theorem run_itemWords (vs items : List Json) (stack : List Unfinished) :
    run (.within (.array items :: stack) .separator) (itemWords vs) =
      close (.array (items.reverse ++ vs)) stack := by
  match vs with
  | [] =>
    rw [List.append_nil]
    exact Option.bind_fun_some _
  | v :: vs =>
    have hv := run_words v (.array items :: stack)
    have hvs := run_itemWords vs (v :: items) stack
    simp only [itemWords, run, step, closeTop, Option.bind_some, run_append, hv, close, hvs,
      List.reverse_cons, List.append_assoc, List.singleton_append]

theorem run_memberWords (ms members : List (Literal × Json)) (stack : List Unfinished) :
    run (.within (.object members :: stack) .separator) (memberWords ms) =
      close (.object (members.reverse ++ ms)) stack := by
  match ms with
  | [] =>
    rw [List.append_nil]
    exact Option.bind_fun_some _
  | (n, v) :: ms =>
    have hv := run_words v (.member members n :: stack)
    have hms := run_memberWords ms ((n, v) :: members) stack
    simp only [memberWords, run, step, closeTop, startMember, Option.bind_some, run_append, hv, close,
      hms, List.reverse_cons, List.append_assoc, List.singleton_append]

end

end Reader

/-- Every text of a value is read as that value. -/
theorem Spelt.read? {j : Json} {text : String} (h : j.Spelt text) : read? text = some j := by
  have hs : Separated j.words := by
    simpa using @separated_words j [] trivial trivial
  rw [Json.read?, readChars, tokens, tokensFrom_words h hs, Option.bind_some, ofTokens?, Reader.run_words]
  rfl

end Muster.Json
