import Mathlib.Tactic.Ring
import Muster.Proofs.Digits
import Muster.Proofs.Pieces
import Muster.Text.Form

/-! What is encoded for a form is decoded again: the bytes of a text give the text back, its escapes give the
bytes, and no separator is part of a name or a value. -/

namespace Muster.Text

/-! UTF-8 -/

/-- The bytes that follow the first one of a character, with six bits of its code each. -/
def tailBytes (n : Nat) : Nat → Bytes
  | 0 => []
  | k + 1 => UInt8.ofNat (n / 64 ^ k % 64 + 128) :: tailBytes n k

theorem toNat_tailByte (n : Nat) : (UInt8.ofNat (n % 64 + 128)).toNat = n % 64 + 128 :=
  UInt8.toNat_ofNat_of_lt' (Nat.lt_of_lt_of_le (by omega) (Nat.le_refl 256))

theorem decodeFrom_last {b : UInt8} {bits low high : Nat} (h : low ≤ b.toNat ∧ b.toNat ≤ high) (bs : Bytes) :
    decodeFrom (some ⟨0, bits, low, high⟩) (b :: bs) =
      some (Char.ofNat (bits * 64 + (b.toNat - 0x80))) :: decodeFrom none bs := by
  rw [decodeFrom, stepChar, if_pos h]
  rfl

theorem decodeFrom_next {b : UInt8} {left bits low high : Nat} (h : low ≤ b.toNat ∧ b.toNat ≤ high)
    (bs : Bytes) : decodeFrom (some ⟨left + 1, bits, low, high⟩) (b :: bs) =
      decodeFrom (some ⟨left, bits * 64 + (b.toNat - 0x80), 0x80, 0xBF⟩) bs := by
  rw [decodeFrom, stepChar, if_pos h]
  rfl

theorem decodeFrom_tailBytes (n : Nat) (rest : Bytes) (k bits low high : Nat)
    (hlow : low ≤ n / 64 ^ k % 64 + 128) (hhigh : n / 64 ^ k % 64 + 128 ≤ high) :
    decodeFrom (some ⟨k, bits, low, high⟩) (tailBytes n (k + 1) ++ rest) =
      some (Char.ofNat (bits * 64 ^ (k + 1) + n % 64 ^ (k + 1))) :: decodeFrom none rest := by
  have hbyte := toNat_tailByte (n / 64 ^ k)
  induction k generalizing bits low high with
  | zero =>
    rw [tailBytes, List.cons_append, decodeFrom_last (by omega), hbyte]
    simp [tailBytes]
  | succ k ih =>
    have hbits : (bits * 64 + n / 64 ^ (k + 1) % 64) * 64 ^ (k + 1) + n % 64 ^ (k + 1) =
        bits * 64 ^ (k + 1 + 1) + n % 64 ^ (k + 1 + 1) := by
      rw [pow_succ 64 (k + 1), Nat.mod_mul]
      ring
    rw [tailBytes, List.cons_append, decodeFrom_next (by omega), hbyte, Nat.add_sub_cancel,
      ih _ _ _ (by omega) (by omega) (toNat_tailByte _), hbits]

theorem decodeFrom_lead {b n k low high : Nat} (hb : b < 256)
    (hstart : startChar b = ([], some ⟨k, n / 64 ^ (k + 1), low, high⟩))
    (hlow : low ≤ n / 64 ^ k % 64 + 128) (hhigh : n / 64 ^ k % 64 + 128 ≤ high) (rest : Bytes) :
    decodeFrom none (UInt8.ofNat b :: (tailBytes n (k + 1) ++ rest)) =
      some (Char.ofNat n) :: decodeFrom none rest := by
  rw [decodeFrom, stepChar, UInt8.toNat_ofNat_of_lt' hb, hstart]
  dsimp only
  rw [List.nil_append, decodeFrom_tailBytes n rest k _ low high hlow hhigh, Nat.div_add_mod']

theorem startChar_two {b : Nat} (h : 0xC2 ≤ b ∧ b < 0xE0) :
    startChar b = ([], some ⟨0, b - 0xC0, 0x80, 0xBF⟩) := by
  rw [startChar, if_neg (by omega), if_pos h]

theorem startChar_three {b : Nat} (h : 0xE0 ≤ b ∧ b < 0xF0) : startChar b = ([], some ⟨1, b - 0xE0,
    if b = 0xE0 then 0xA0 else 0x80, if b = 0xED then 0x9F else 0xBF⟩) := by
  rw [startChar, if_neg (by omega), if_neg (by omega), if_pos h]

theorem startChar_four {b : Nat} (h : 0xF0 ≤ b ∧ b < 0xF5) : startChar b = ([], some ⟨2, b - 0xF0,
    if b = 0xF0 then 0x90 else 0x80, if b = 0xF4 then 0x8F else 0xBF⟩) := by
  rw [startChar, if_neg (by omega), if_neg (by omega), if_neg (by omega), if_pos h]

theorem decodeFrom_utf8EncodeChar (c : Char) (rest : Bytes) :
    decodeFrom none (String.utf8EncodeChar c ++ rest) = some c :: decodeFrom none rest := by
  have hvalid : c.toNat < 0xD800 ∨ 0xDFFF < c.toNat ∧ c.toNat < 0x110000 := c.valid
  have hvalue : c.val.toNat = c.toNat := rfl
  rw [← congrArg some (Char.ofNat_toNat c)]
  simp only [String.utf8EncodeChar, hvalue]
  generalize c.toNat = n at hvalid
  split
  · have hstart : startChar (UInt8.ofNat n).toNat = ([some (Char.ofNat n)], none) := by
      rw [UInt8.toNat_ofNat_of_lt' (Nat.lt_of_le_of_lt ‹n ≤ 127› (by decide)), startChar, if_pos (by omega)]
    rw [List.singleton_append, decodeFrom, stepChar, hstart]
    rfl
  · split
    · have hstart := startChar_two (b := n / 64 % 32 + 192) (by omega)
      have hbits : n / 64 % 32 + 192 - 0xC0 = n / 64 ^ (0 + 1) := by omega
      rw [hbits] at hstart
      have h := decodeFrom_lead (by omega) hstart (by omega) (by omega) rest
      simpa [tailBytes] using h
    · split
      · have hstart := startChar_three (b := n / 4096 % 16 + 224) (by omega)
        have hbits : n / 4096 % 16 + 224 - 0xE0 = n / 64 ^ (1 + 1) := by omega
        rw [hbits] at hstart
        have h := decodeFrom_lead (by omega) hstart (by split <;> omega) (by split <;> omega) rest
        simpa [tailBytes] using h
      · have hstart := startChar_four (b := n / 262144 % 8 + 240) (by omega)
        have hbits : n / 262144 % 8 + 240 - 0xF0 = n / 64 ^ (2 + 1) := by omega
        rw [hbits] at hstart
        have h := decodeFrom_lead (by omega) hstart (by split <;> omega) (by split <;> omega) rest
        simpa [tailBytes] using h

theorem decodeFrom_utf8 (cs : List Char) : decodeFrom none (utf8 cs) = cs.map some := by
  induction cs with
  | nil => rfl
  | cons c cs ih => rw [utf8, List.flatMap_cons, decodeFrom_utf8EncodeChar, List.map_cons, ← ih, utf8]

theorem ofUtf8Lossy_utf8 (cs : List Char) : ofUtf8Lossy (utf8 cs) = cs := by
  rw [ofUtf8Lossy, decodeFrom_utf8, List.map_map]
  exact List.map_id cs

theorem cut?_eq_some_iff {p : Char → Bool} {cs as bs : List Char} : cut? p cs = some (as, bs) ↔
    ∃ d, cs = as ++ d :: bs ∧ p d = true ∧ ∀ c ∈ as, p c = false := by
  induction cs generalizing as with
  | nil => simp [cut?]
  | cons c cs ih =>
    by_cases hc : p c = true
    · rw [cut?, if_pos hc]
      constructor
      · intro h
        cases h
        exact ⟨c, rfl, hc, by simp⟩
      · intro ⟨d, hcs, hd, has⟩
        cases as with
        | nil =>
          cases hcs
          rfl
        | cons a as =>
          obtain ⟨rfl, -⟩ := List.cons_eq_cons.1 hcs
          simp [hc] at has
    · rw [cut?, if_neg hc, Option.map_eq_some_iff]
      constructor
      · intro ⟨⟨as', bs'⟩, hcut, hsplit⟩
        cases hsplit
        obtain ⟨d, rfl, hd, has⟩ := ih.1 hcut
        exact ⟨d, rfl, hd, by simpa [hc] using has⟩
      · intro ⟨d, hcs, hd, has⟩
        cases as with
        | nil =>
          cases hcs
          exact absurd hd hc
        | cons a as =>
          obtain ⟨rfl, rfl⟩ := List.cons_eq_cons.1 hcs
          exact ⟨(as, bs), ih.2 ⟨d, rfl, hd, (List.forall_mem_cons.1 has).2⟩, rfl⟩

namespace Form

/-! Escapes -/

def IsSafe (c : Char) : Prop := isPlain c.toNat = true ∨ c = '+' ∨ c = '%'

theorem isPlain_bounds {n : Nat} (h : isPlain n = true) : n < 0x7F ∧ n ≠ 0x25 ∧ n ≠ 0x2B := by
  simp [isPlain] at h
  omega

theorem toNat_ofNat {n : Nat} (h : isPlain n = true) : (Char.ofNat n).toNat = n := by
  have hascii : ∀ n < 0x7F, (Char.ofNat n).toNat = n := by decide
  exact hascii n (isPlain_bounds h).1

theorem isPlain_upperHex : ∀ n < 16, isPlain (upperHex n).toNat = true := by
  decide

theorem safe_encodeByte {b : UInt8} {c : Char} (h : c ∈ encodeByte b) : IsSafe c := by
  have hb : b.toNat < 256 := b.toNat_lt
  rw [encodeByte] at h
  split at h
  · exact .inr (.inl (List.mem_singleton.1 h))
  · split at h
    · rename_i hplain
      rw [List.mem_singleton.1 h, IsSafe, toNat_ofNat hplain]
      exact .inl hplain
    · obtain rfl | rfl | rfl := (by simpa [percent] using h : c = _ ∨ c = _ ∨ c = _)
      · exact .inr (.inr rfl)
      · exact .inl (isPlain_upperHex _ (by omega))
      · exact .inl (isPlain_upperHex _ (by omega))

theorem safe_encodeText {s : String} {c : Char} (h : c ∈ encodeText s) : IsSafe c := by
  obtain ⟨b, -, hc⟩ := List.mem_flatMap.1 h
  exact safe_encodeByte hc

/-- A plus sign is a space, before escapes are looked at. -/
def unplus (c : Char) : Char := if c = '+' then ' ' else c

theorem unplus_of_isPlain {c : Char} (h : isPlain c.toNat = true) : unplus c = c := by
  refine if_neg fun hc => ?_
  rw [hc] at h
  exact absurd h (by decide)

theorem percentDecode_cons {c : Char} (h : c ≠ '%') (cs : List Char) :
    percentDecode (c :: cs) = String.utf8EncodeChar c ++ percentDecode cs := by
  rw [percentDecode]
  rintro a b ds rfl
  contradiction

theorem percentDecode_percent {b : UInt8} (cs : List Char) :
    percentDecode (percent b.toNat ++ cs) = b :: percentDecode cs := by
  have hb : b.toNat < 256 := b.toNat_lt
  have hdigit (n : Nat) (hn : n < 16) : digitValue 16 (upperHex n) = some n :=
    digitValue_hex_eq_some_iff.2 ⟨hn, .inr rfl⟩
  have hsum : 16 * (b.toNat / 16) + b.toNat % 16 = b.toNat := by omega
  rw [percent, List.cons_append, List.cons_append, List.cons_append, percentDecode,
    hdigit _ (by omega), hdigit _ (by omega)]
  simp [hsum]

theorem percentDecode_encodeByte (b : UInt8) (cs : List Char) :
    percentDecode ((encodeByte b ++ cs).map unplus) = b :: percentDecode (cs.map unplus) := by
  have hb : b.toNat < 256 := b.toNat_lt
  rw [encodeByte, List.map_append]
  split
  · rename_i hspace
    have hplus : unplus '+' = ' ' := rfl
    rw [List.map_singleton, hplus, List.singleton_append, percentDecode_cons (by decide), hspace]
    rfl
  · split
    · rename_i hplain
      obtain ⟨hlt, hpercent, hplus⟩ := isPlain_bounds hplain
      have hnat := toNat_ofNat hplain
      have hbytes : String.utf8EncodeChar (Char.ofNat b.toNat) = [b] := by
        have hascii (d : Char) (h : d.toNat ≤ 127) : String.utf8EncodeChar d = [UInt8.ofNat d.toNat] := if_pos h
        rw [hascii _ (by omega), hnat, UInt8.ofNat_toNat]
      rw [List.map_singleton, unplus_of_isPlain (by rwa [hnat]), List.singleton_append,
        percentDecode_cons fun h => hpercent (by rw [← hnat, h]; rfl), hbytes]
      rfl
    · have hsame : (percent b.toNat).map unplus = percent b.toNat := by
        rw [percent]
        simp only [List.map_cons, List.map_nil, unplus_of_isPlain (isPlain_upperHex _ (by omega : b.toNat / 16 < 16)),
          unplus_of_isPlain (isPlain_upperHex _ (by omega : b.toNat % 16 < 16))]
        rfl
      rw [hsame, percentDecode_percent]

theorem decodeText_encodeText (s : String) : decodeText (encodeText s) = s := by
  have hbytes (bs : Bytes) : percentDecode ((bs.flatMap encodeByte).map unplus) = bs := by
    induction bs with
    | nil => rfl
    | cons b bs ih => rw [List.flatMap_cons, percentDecode_encodeByte, ih]
  have hdecode : decodeText (encodeText s) =
      String.ofList (ofUtf8Lossy (percentDecode ((encodeText s).map unplus))) := rfl
  rw [hdecode, encodeText, hbytes, bytesOf, ofUtf8Lossy_utf8, String.ofList_toList]

/-! Pairs -/

theorem mem_encodePair {p : String × String} {c : Char} (h : c ∈ encodePair p) : IsSafe c ∨ c = '=' := by
  rw [encodePair, List.mem_append, List.mem_cons] at h
  obtain h | h | h := h
  · exact .inl (safe_encodeText h)
  · exact .inr h
  · exact .inl (safe_encodeText h)

theorem decodePair_encodePair (p : String × String) : decodePair (encodePair p) = p := by
  have hsafe : ∀ c ∈ encodeText p.1, decide (c = '=') = false := by
    intro c hc
    refine decide_eq_false fun h => ?_
    rw [h] at hc
    exact absurd (safe_encodeText hc) (by unfold IsSafe; decide)
  rw [encodePair, decodePair, cut?_eq_some_iff.2 ⟨'=', rfl, by decide, hsafe⟩, Option.getD_some]
  dsimp only
  rw [decodeText_encodeText, decodeText_encodeText]

theorem encode_eq (ps : List (String × String)) : encode ps = ['&'].intercalate (ps.map encodePair) := by
  induction ps with
  | nil => rfl
  | cons p ps ih =>
    cases ps with
    | nil => simp [encode]
    | cons q qs => simp [encode, ih]

def IsEncoded (c : Char) : Prop := IsSafe c ∨ c = '=' ∨ c = '&'

theorem IsEncoded.plain {c : Char} (h : IsEncoded c) :
    0x20 < c.toNat ∧ c.toNat < 0x7F ∧ c ∉ ['"', '#', '<', '>', '\'', '?'] := by
  have hrefused : ['"', '#', '<', '>', '\'', '?'].all
      (fun d => !isPlain d.toNat && d != '+' && d != '%' && d != '=' && d != '&') = true := by
    decide
  have hbounds : 0x20 < c.toNat ∧ c.toNat < 0x7F := by
    obtain (hplain | rfl | rfl) | rfl | rfl := h
    · simp [isPlain] at hplain
      omega
    all_goals decide
  refine ⟨hbounds.1, hbounds.2, fun hc => ?_⟩
  have hnone := List.all_eq_true.1 hrefused c hc
  unfold IsEncoded IsSafe at h
  simp_all

theorem mem_encode {ps : List (String × String)} {c : Char} (h : c ∈ encode ps) : IsEncoded c := by
  fun_induction encode ps with
  | case1 => cases h
  | case2 p => exact (mem_encodePair h).imp_right .inl
  | case3 p q ps ih =>
    obtain h | h := List.mem_append.1 h
    · exact (mem_encodePair h).imp_right .inl
    · obtain h | h := List.mem_cons.1 h
      · exact .inr (.inr h)
      · exact ih h

/-- What is encoded is decoded as the same pairs in the same order. -/
theorem decode_encode (ps : List (String × String)) : decode (encode ps) = ps := by
  cases ps with
  | nil => rfl
  | cons p qs =>
    have hpieces : pieces '&' (encode (p :: qs)) = (p :: qs).map encodePair := by
      refine pieces_eq_iff.2 ⟨List.cons_ne_nil _ _, fun cs hcs hand => ?_, (encode_eq _).symm⟩
      obtain ⟨r, -, rfl⟩ := List.mem_map.1 hcs
      obtain hsafe | heq := mem_encodePair hand
      · exact absurd hsafe (by unfold IsSafe; decide)
      · exact absurd heq (by decide)
    have hfilled : ((p :: qs).map encodePair).filter (fun cs => !cs.isEmpty) = (p :: qs).map encodePair := by
      refine List.filter_eq_self.2 fun cs hcs => ?_
      obtain ⟨r, -, rfl⟩ := List.mem_map.1 hcs
      simp [encodePair]
    rw [decode, hpieces, hfilled, List.map_map]
    exact (List.map_congr_left fun r _ => decodePair_encodePair r).trans (List.map_id _)

end Form

end Muster.Text
