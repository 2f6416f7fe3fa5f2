import Muster.Proofs.ColorNotation
import Muster.Proofs.LetterCase

/-! The texts of a colour in the documented notation are its canonical text and the other spellings of it:
in other letter case, with blanks around it, without its number sign, with full opacity written out. -/

namespace Muster

theorem Text.hexDigit_iff_toLower {c : Char} {n : Nat} :
    HexDigit c n ↔ n < 16 ∧ c.toLower = Nat.digitChar n := by
  have hlower : ∀ n < 16, (Nat.digitChar n).toLower = Nat.digitChar n ∧
      (Nat.digitChar n).toUpper.toLower = Nat.digitChar n := by
    decide
  constructor
  · rintro ⟨hn, rfl | rfl⟩
    · exact ⟨hn, (hlower n hn).1⟩
    · exact ⟨hn, (hlower n hn).2⟩
  · rintro ⟨hn, hc⟩
    refine ⟨hn, ?_⟩
    obtain ⟨hcapital, hsum⟩ | ⟨-, hsame⟩ := toLower_cases c
    · -- A capital has the value of its small letter less 32, as the capital digit has.
      have hvalues : ∀ n < 16, (Nat.digitChar n).toNat < 97 ∨
          (Nat.digitChar n).toUpper.toNat + 32 = (Nat.digitChar n).toNat := by
        decide
      rw [hc] at hsum
      refine .inr (Char.toNat_inj.1 ?_)
      obtain h | h := hvalues n hn <;> omega
    · exact .inl (hsame.symm.trans hc)

namespace Color

variable {raw : String} {cs : List Char} {c : Color} {x : UInt8}

theorem pair_iff_lower : Pair cs x ↔ Text.lower cs = writeChannel x := by
  have hx : x.toNat < 256 := x.toNat_lt
  constructor
  · intro h
    cases h with
    | @digits c d m n _ hm hn hvalue =>
      obtain ⟨hm, hc⟩ := Text.hexDigit_iff_toLower.1 hm
      obtain ⟨hn, hd⟩ := Text.hexDigit_iff_toLower.1 hn
      have hhigh : x.toNat / 16 = m := by omega
      have hlow : x.toNat % 16 = n := by omega
      simp [Text.lower, writeChannel, hexDigit, hc, hd, hhigh, hlow]
  · intro h
    obtain ⟨c, d, rfl⟩ : ∃ c d, cs = [c, d] := List.length_eq_two.1 (by
      simpa [Text.lower, writeChannel] using congrArg List.length h)
    obtain ⟨hc, hd⟩ : c.toLower = hexDigit (x.toNat / 16) ∧ d.toLower = hexDigit (x.toNat % 16) := by
      simpa [Text.lower, writeChannel] using h
    exact .digits (Text.hexDigit_iff_toLower.2 ⟨by omega, hc⟩)
      (Text.hexDigit_iff_toLower.2 ⟨by omega, hd⟩) (by omega)

/-- The canonical text of the colour in any letter case, with blanks around it or not, with its number sign
or without, and with its opacity written out when it is full. -/
def Respells (c : Color) (raw : String) : Prop :=
  ∃ left mark ds opacity right, raw.toList = left ++ (mark ++ (ds ++ opacity)) ++ right ∧
    '#' :: Text.lower ds = c.toHex.toList ∧ (mark = [] ∨ mark = ['#']) ∧
    (opacity = [] ∨ c.a = 255 ∧ Text.lower opacity = ['f', 'f']) ∧
    ∀ d ∈ left ++ right, Text.isBlank d = true

theorem toList_toHex (c : Color) : c.toHex.toList = '#' :: c.hexDigits := by
  simp [toHex, hexDigits]

theorem spells_pair_iff : Spells Pair cs c ↔ ∃ ds opacity, cs = ds ++ opacity ∧
    Text.lower ds = c.hexDigits ∧ (opacity = [] ∨ c.a = 255 ∧ Text.lower opacity = ['f', 'f']) := by
  have happend (l m : List Char) : Text.lower (l ++ m) = Text.lower l ++ Text.lower m := List.map_append
  constructor
  · intro h
    cases h with
    | solid hr hg hb ha =>
      refine ⟨_, [], (List.append_nil _).symm, ?_, .inl rfl⟩
      rw [happend, happend, pair_iff_lower.1 hr, pair_iff_lower.1 hg, pair_iff_lower.1 hb, hexDigits,
        if_pos ha, List.append_nil]
    | @clear r g b a _ hr hg hb ha =>
      by_cases hsolid : c.a = 255
      · refine ⟨r ++ g ++ b, a, rfl, ?_, .inr ⟨hsolid, ?_⟩⟩
        · rw [happend, happend, pair_iff_lower.1 hr, pair_iff_lower.1 hg, pair_iff_lower.1 hb, hexDigits,
            if_pos hsolid, List.append_nil]
        · rw [pair_iff_lower.1 ha, hsolid]
          decide
      · refine ⟨_, [], (List.append_nil _).symm, ?_, .inl rfl⟩
        rw [happend, happend, happend, pair_iff_lower.1 hr, pair_iff_lower.1 hg, pair_iff_lower.1 hb,
          pair_iff_lower.1 ha, hexDigits, if_neg hsolid]
  · rintro ⟨ds, opacity, rfl, hds, hopacity⟩
    rw [hexDigits] at hds
    obtain ⟨rgb, a, rfl, hrgb, ha⟩ := List.map_eq_append_iff.1 hds
    obtain ⟨rg, b, rfl, hrg, hb⟩ := List.map_eq_append_iff.1 hrgb
    obtain ⟨r, g, rfl, hr, hg⟩ := List.map_eq_append_iff.1 hrg
    have hr := pair_iff_lower.2 hr
    have hg := pair_iff_lower.2 hg
    have hb := pair_iff_lower.2 hb
    by_cases hsolid : c.a = 255
    · rw [if_pos hsolid] at ha
      obtain rfl := List.map_eq_nil_iff.1 ha
      obtain rfl | ⟨-, hopacity⟩ := hopacity
      · simpa using Spells.solid hr hg hb hsolid
      · have hfull : Pair opacity c.a := pair_iff_lower.2 (hopacity.trans (by rw [hsolid]; decide))
        simpa using Spells.clear hr hg hb hfull
    · rw [if_neg hsolid] at ha
      obtain rfl := hopacity.resolve_right fun h => hsolid h.1
      rw [List.append_nil]
      exact .clear hr hg hb (pair_iff_lower.2 ha)

/-- The documented notation of a colour is its canonical text, spelt in one way or another. -/
theorem denotes_iff_respells : Denotes raw c ↔ c.Respells raw := by
  have hmark (mark : List Char) : (∃ n ≤ 1, mark = List.replicate n '#') ↔ mark = [] ∨ mark = ['#'] := by
    constructor
    · rintro ⟨n, hn, rfl⟩
      obtain rfl | rfl : n = 0 ∨ n = 1 := by omega
      · exact .inl rfl
      · exact .inr rfl
    · rintro (rfl | rfl)
      · exact ⟨0, by omega, rfl⟩
      · exact ⟨1, by omega, rfl⟩
  constructor
  · rintro ⟨left, n, cs, right, hraw, hn, hspells, hblank⟩
    obtain ⟨ds, opacity, rfl, hds, hopacity⟩ := spells_pair_iff.1 hspells
    exact ⟨left, _, ds, opacity, right, hraw, by rw [toList_toHex, hds], (hmark _).1 ⟨n, hn, rfl⟩, hopacity,
      hblank⟩
  · rintro ⟨left, mark, ds, opacity, right, hraw, hds, hm, hopacity, hblank⟩
    obtain ⟨n, hn, rfl⟩ := (hmark mark).2 hm
    rw [toList_toHex] at hds
    exact ⟨left, n, ds ++ opacity, right, hraw, hn,
      spells_pair_iff.2 ⟨ds, opacity, rfl, (List.cons.inj hds).2, hopacity⟩, hblank⟩

theorem Respells.ofHex (h : c.Respells raw) : ofHex raw = .ok c := by
  obtain ⟨left, n, cs, right, hraw, -, hspells, hblank⟩ := denotes_iff_respells.2 h
  exact ofHex_eq_ok_iff.2 ⟨left, n, cs, right, hraw, trivial, hspells.imp fun _ _ _ hpair => .inl hpair, hblank⟩

end Color

end Muster
