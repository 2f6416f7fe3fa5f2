import Muster.Proofs.Keeps
import Muster.Proofs.StoredText
import Muster.Proofs.Trimming

/-! What is read as a colour: the documented notation, and beyond it texts with more number signs or with
plus signs. -/

namespace Muster

theorem Text.HexDigit.plain {c : Char} {n : Nat} (h : HexDigit c n) :
    c.toNat < 128 ∧ Text.isBlank c = false ∧ c ≠ '#' ∧ c ≠ '+' := by
  have hplain : ∀ n < 16, [Nat.digitChar n, (Nat.digitChar n).toUpper].all
      (fun c => c.toNat < 128 && !Text.isBlank c && c != '#' && c != '+') = true := by
    decide
  obtain ⟨hn, hc⟩ := h
  have hall := List.all_eq_true.1 (hplain n hn) c (by simpa using hc)
  simpa [and_assoc] using hall

namespace Color

inductive Pair : List Char → UInt8 → Prop
  | digits {c d : Char} {m n : Nat} {x : UInt8} : Text.HexDigit c m → Text.HexDigit d n →
    x.toNat = 16 * m + n → Pair [c, d] x

inductive Signed : List Char → UInt8 → Prop
  | digit {d : Char} {x : UInt8} : Text.HexDigit d x.toNat → Signed ['+', d] x

def Taken (cs : List Char) (x : UInt8) : Prop := Pair cs x ∨ Signed cs x

/-- The channels one after the other, written as `Channel` says. Opacity is full where it is not given. -/
inductive Spells (Channel : List Char → UInt8 → Prop) : List Char → Color → Prop
  | solid {r g b : List Char} {c : Color} : Channel r c.r → Channel g c.g → Channel b c.b → c.a = 255 →
    Spells Channel (r ++ g ++ b) c
  | clear {r g b a : List Char} {c : Color} : Channel r c.r → Channel g c.g → Channel b c.b →
    Channel a c.a → Spells Channel (r ++ g ++ b ++ a) c

/-- A colour behind number signs as many as `Marks` allows, with blanks around it all. -/
def Written (Marks : Nat → Prop) (Channel : List Char → UInt8 → Prop) (raw : String) (c : Color) : Prop :=
  ∃ left n cs right, raw.toList = left ++ (List.replicate n '#' ++ cs) ++ right ∧ Marks n ∧
    Spells Channel cs c ∧ ∀ d ∈ left ++ right, Text.isBlank d = true

/-- The documented notation: six or eight hexadecimal digits behind a number sign or none. -/
def Denotes : String → Color → Prop := Written (· ≤ 1) Pair

variable {raw : String} {cs : List Char} {c : Color} {x : UInt8}

theorem taken_iff {d e : Char} : readChannel d e = some x ↔ Taken [d, e] x := by
  constructor
  · intro h
    rw [readChannel] at h
    cases hd : Text.digitValue 16 d with
    | none =>
      cases he : Text.digitValue 16 e with
      | none => simp [hd, he] at h
      | some n =>
        obtain ⟨rfl, rfl⟩ : d = '+' ∧ UInt8.ofNat n = x := by simpa [hd, he] using h
        have hn := Text.digitValue_hex_eq_some_iff.1 he
        have hx : (UInt8.ofNat n).toNat = n := UInt8.toNat_ofNat_of_lt' (Nat.lt_trans hn.1 (by decide))
        exact .inr (.digit (hx.symm ▸ hn))
    | some m =>
      cases he : Text.digitValue 16 e with
      | none => simp [hd, he] at h
      | some n =>
        obtain rfl : UInt8.ofNat (16 * m + n) = x := by simpa [hd, he] using h
        have hm := Text.digitValue_hex_eq_some_iff.1 hd
        have hn := Text.digitValue_hex_eq_some_iff.1 he
        have hlt : 16 * m + n < 256 := by have := hm.1; have := hn.1; omega
        exact .inl (.digits hm hn (UInt8.toNat_ofNat_of_lt' hlt))
  · intro h
    obtain hpair | hsigned := h
    · cases hpair with
      | digits hm hn hx =>
        rw [readChannel, Text.digitValue_hex_eq_some_iff.2 hm, Text.digitValue_hex_eq_some_iff.2 hn]
        simp [← hx]
    · cases hsigned with
      | digit hn =>
        have hplus : Text.digitValue 16 '+' = none := by decide
        rw [readChannel, hplus, Text.digitValue_hex_eq_some_iff.2 hn]
        simp

theorem Pair.plain (h : Pair cs x) {d : Char} (hd : d ∈ cs) :
    d.toNat < 128 ∧ Text.isBlank d = false ∧ d ≠ '#' ∧ d ≠ '+' := by
  cases h with
  | digits hm hn hx =>
    obtain rfl | rfl := (by simpa using hd : d = _ ∨ d = _)
    · exact hm.plain
    · exact hn.plain

theorem Taken.plain (h : Taken cs x) {d : Char} (hd : d ∈ cs) :
    d.toNat < 128 ∧ Text.isBlank d = false ∧ d ≠ '#' := by
  obtain hpair | hsigned := h
  · obtain ⟨hascii, hblank, hmark, -⟩ := hpair.plain hd
    exact ⟨hascii, hblank, hmark⟩
  · cases hsigned with
    | digit hn =>
      obtain rfl | rfl := (by simpa using hd : d = _ ∨ d = _)
      · decide
      · exact ⟨hn.plain.1, hn.plain.2.1, hn.plain.2.2.1⟩

theorem Spells.forall_mem {Channel : List Char → UInt8 → Prop} {P : Char → Prop} (h : Spells Channel cs c)
    (hp : ∀ ds x, Channel ds x → ∀ d ∈ ds, P d) : ∀ d ∈ cs, P d := by
  cases h with
  | solid hr hg hb _ =>
    simp only [List.forall_mem_append]
    exact ⟨⟨hp _ _ hr, hp _ _ hg⟩, hp _ _ hb⟩
  | clear hr hg hb ha =>
    simp only [List.forall_mem_append]
    exact ⟨⟨⟨hp _ _ hr, hp _ _ hg⟩, hp _ _ hb⟩, hp _ _ ha⟩

theorem Spells.imp {Channel Channel' : List Char → UInt8 → Prop} (h : Spells Channel cs c)
    (hc : ∀ ds x, ds ⊆ cs → Channel ds x → Channel' ds x) : Spells Channel' cs c := by
  cases h with
  | solid hr hg hb ha =>
    exact .solid (hc _ _ (by grind) hr) (hc _ _ (by grind) hg) (hc _ _ (by grind) hb) ha
  | clear hr hg hb ha =>
    exact .clear (hc _ _ (by grind) hr) (hc _ _ (by grind) hg) (hc _ _ (by grind) hb) (hc _ _ (by grind) ha)

theorem Taken.two (h : Taken cs x) : ∃ d e, cs = [d, e] ∧ readChannel d e = some x := by
  have hcs : ∃ d e, cs = [d, e] := by
    obtain hpair | hsigned := h
    · cases hpair
      exact ⟨_, _, rfl⟩
    · cases hsigned
      exact ⟨_, _, rfl⟩
  obtain ⟨d, e, rfl⟩ := hcs
  exact ⟨d, e, rfl, taken_iff.2 h⟩

theorem readDigits_eq_ok_iff : readDigits cs = .ok c ↔ Spells Taken cs c := by
  have hread (d e : Char) (x : UInt8) :
      (readChannel d e).elim (Except.error HexError.digit) Except.ok = .ok x ↔ Taken [d, e] x := by
    rw [← taken_iff]
    cases readChannel d e <;> simp
  constructor
  · intro h
    unfold readDigits at h
    split at h
    · split at h
      · simp only [exceptBind_eq_ok, hread] at h
        obtain ⟨r, hr, g, hg, b, hb, hc⟩ := h
        cases hc
        exact .solid (c := rgb r g b) hr hg hb rfl
      · simp only [exceptBind_eq_ok, hread] at h
        obtain ⟨r, hr, g, hg, b, hb, a, ha, hc⟩ := h
        cases hc
        exact .clear (c := ⟨r, g, b, a⟩) hr hg hb ha
      · cases h
    · cases h
  · intro h
    have hascii : cs.all (·.toNat < 128) = true :=
      List.all_eq_true.2 fun d hd => decide_eq_true (h.forall_mem (fun ds x ht d hd => (ht.plain hd).1) d hd)
    unfold readDigits
    rw [if_pos hascii]
    cases h with
    | solid hr hg hb ha =>
      obtain ⟨r, r', rfl, hr'⟩ := hr.two
      obtain ⟨g, g', rfl, hg'⟩ := hg.two
      obtain ⟨b, b', rfl, hb'⟩ := hb.two
      have hc : rgb c.r c.g c.b = c := by rw [rgb, ← ha]
      simp [hr', hg', hb', hc, bind, Except.bind, pure, Except.pure]
    | clear hr hg hb ha =>
      obtain ⟨r, r', rfl, hr'⟩ := hr.two
      obtain ⟨g, g', rfl, hg'⟩ := hg.two
      obtain ⟨b, b', rfl, hb'⟩ := hb.two
      obtain ⟨a, a', rfl, ha'⟩ := ha.two
      simp [hr', hg', hb', ha', bind, Except.bind, pure, Except.pure]

theorem ofHex_eq_ok_iff : ofHex raw = .ok c ↔ Written (fun _ => True) Taken raw c := by
  rw [ofHex, readDigits_eq_ok_iff]
  constructor
  · intro h
    obtain ⟨left, right, haround, hblank⟩ := Text.exists_around_trimChars raw.toList
    obtain ⟨n, hmarks⟩ : ∃ n, (Text.trimChars raw.toList).takeWhile (· = '#') = List.replicate n '#' :=
      ⟨_, List.eq_replicate_iff.2 ⟨rfl, fun d hd => by simpa using List.mem_takeWhile_imp hd⟩⟩
    refine ⟨left, n, digits raw, right, ?_, trivial, h, hblank⟩
    rw [digits, ← hmarks, List.takeWhile_append_dropWhile]
    exact haround
  · intro h
    obtain ⟨left, n, cs, right, haround, -, hspells, hblank⟩ := h
    have hplain : ∀ d ∈ cs, d.toNat < 128 ∧ Text.isBlank d = false ∧ d ≠ '#' :=
      hspells.forall_mem fun ds x ht d hd => ht.plain hd
    have htrim : Text.trimChars (List.replicate n '#' ++ cs) = List.replicate n '#' ++ cs := by
      refine Text.trimChars_of_no_blank (List.forall_mem_append.2 ⟨fun d hd => ?_, fun d hd => (hplain d hd).2.1⟩)
      rw [List.eq_of_mem_replicate hd]
      decide
    have hdigits : digits raw = cs := by
      rw [digits, haround, Text.trimChars_around htrim hblank,
        List.dropWhile_append_of_pos fun d hd => decide_eq_true (List.eq_of_mem_replicate hd)]
      exact List.dropWhile_eq_self_iff.2 fun h => by simpa using (hplain _ (List.getElem_mem h)).2.2
    rwa [hdigits]

theorem Denotes.marks (h : Denotes raw c) : '+' ∉ raw.toList ∧ raw.toList.count '#' ≤ 1 := by
  obtain ⟨left, n, cs, right, haround, hn, hspells, hblank⟩ := h
  have hplain : ∀ d ∈ cs, d ≠ '#' ∧ d ≠ '+' :=
    hspells.forall_mem fun ds x hpair d hd => (hpair.plain hd).2.2
  have hsigns : ∀ d ∈ left ++ right, d ≠ '#' ∧ d ≠ '+' := by
    intro d hd
    constructor <;> rintro rfl <;> exact absurd (hblank _ hd) (by decide)
  obtain ⟨hleft, hright⟩ := List.forall_mem_append.1 hsigns
  rw [haround]
  constructor
  · simp only [List.mem_append, List.mem_replicate, not_or]
    exact ⟨⟨fun h => (hleft _ h).2 rfl, fun h => absurd h.2 (by decide), fun h => (hplain _ h).2 rfl⟩,
      fun h => (hright _ h).2 rfl⟩
  · have hnone (ds : List Char) (h : ∀ d ∈ ds, d ≠ '#' ∧ d ≠ '+') : ds.count '#' = 0 :=
      List.count_eq_zero.2 fun hd => (h _ hd).1 rfl
    rw [List.count_append, List.count_append, List.count_append, hnone left hleft, hnone cs hplain,
      hnone right hright, List.count_replicate_self]
    omega

/-- A colour is read from its documented notation. Beyond it, there may be more number signs, and a channel
may be one digit behind a plus sign; without these what is read is the notation. -/
theorem notation_is_read_and_signs_are_passed (raw : String) (c : Color) :
    (ofHex raw = .ok c ↔ Written (fun _ => True) Taken raw c) ∧
    (Denotes raw c ↔ ofHex raw = .ok c ∧ '+' ∉ raw.toList ∧ raw.toList.count '#' ≤ 1) := by
  refine ⟨ofHex_eq_ok_iff, fun h => ?_, fun h => ?_⟩
  · refine ⟨ofHex_eq_ok_iff.2 ?_, h.marks⟩
    obtain ⟨left, n, cs, right, haround, -, hspells, hblank⟩ := h
    exact ⟨left, n, cs, right, haround, trivial, hspells.imp fun _ _ _ hpair => .inl hpair, hblank⟩
  · obtain ⟨hread, hplus, hmarks⟩ := h
    obtain ⟨left, n, cs, right, haround, -, hspells, hblank⟩ := ofHex_eq_ok_iff.1 hread
    rw [haround] at hplus hmarks
    have hn : n ≤ 1 := by
      simp only [List.count_append, List.count_replicate_self] at hmarks
      omega
    refine ⟨left, n, cs, right, haround, hn, hspells.imp fun ds x hsub htaken => ?_, hblank⟩
    refine htaken.resolve_right fun hsigned => hplus ?_
    have hmem : '+' ∈ cs := hsub (by cases hsigned; simp)
    simp [hmem]

/-- A plus sign stands for no digit of the notation, and yet it is read. -/
theorem plus_sign_is_read_as_zero :
    ofHex "+f+f+f" = .ok (rgb 15 15 15) ∧ ¬∃ c, Denotes "+f+f+f" c := by
  refine ⟨by decide +kernel, fun h => ?_⟩
  obtain ⟨c, hc⟩ := h
  exact hc.marks.1 (by decide +kernel)

end Color

end Muster
