import Muster.Proofs.Digits
import Muster.Proofs.SkillText
import Muster.Proofs.Trimming

/-! What is read from a line of a skill list, by the shape of the line. The pattern for lines,
`^(.*\D)(\s\d)?$`, can split a line in one way at most, and so it does not matter which way it tries
first. -/

namespace Muster.SkillLine

/-- The last character is no decimal digit of any script. -/
def EndsBare (cs : List Char) : Prop := ∃ c ∈ cs.getLast?, Text.isDigit c = false

@[simp] theorem endsBare_concat {cs : List Char} {c : Char} :
    EndsBare (cs ++ [c]) ↔ Text.isDigit c = false := by
  simp [EndsBare]

theorem EndsBare.ne_nil {cs : List Char} (h : EndsBare cs) : cs ≠ [] := by
  rintro rfl
  obtain ⟨c, hc, -⟩ := h
  cases hc

/-! The pattern -/

/-- The two groups of a match: a name on one line that ends bare, then nothing or a blank and a digit. -/
structure Split (line name level : List Char) : Prop where
  whole : line = name ++ level
  bare : EndsBare name
  flat : '\n' ∉ name.dropLast
  level : level = [] ∨ ∃ b d, level = [b, d] ∧ Text.isBlank b = true ∧ Text.isDigit d = true

def levelOf : List Char → Option Nat
  | [_, d] => Text.digitValue 10 d
  | _ => some 1

def ofParts (line name level : List Char) : Except LineError (String × Int) :=
  match levelOf level with
  | some k =>
    if k ≤ maxLevel then .ok (String.ofList (Text.trimChars name), (k : Int))
    else .error (.invalidLevel (String.ofList line) k)
  | none => .error (.malformed (String.ofList line))

/-- What a line says by the pattern. -/
inductive Matched (line : List Char) : Except LineError (String × Int) → Prop
  | unsplit (h : ∀ name level, ¬Split line name level) :
    Matched line (.error (.malformed (String.ofList line)))
  | split {name level : List Char} (h : Split line name level) : Matched line (ofParts line name level)

variable {line name level name' level' p raw : List Char} {b d l : Char} {k : Nat}
  {r : Except LineError (String × Int)}

theorem Split.cases_end (h : Split (p ++ [d]) name level) :
    Text.isDigit d = false ∧ name = p ++ [d] ∧ level = [] ∨
    Text.isDigit d = true ∧ ∃ b, Text.isBlank b = true ∧ p = name ++ [b] ∧ level = [b, d] := by
  obtain ⟨hwhole, hbare, -, rfl | ⟨b, e, rfl, hb, he⟩⟩ := h
  · rw [List.append_nil] at hwhole
    subst hwhole
    exact .inl ⟨endsBare_concat.1 hbare, rfl, rfl⟩
  · have hsplit : name ++ [b, e] = (name ++ [b]) ++ [e] := List.append_cons ..
    obtain ⟨rfl, hd⟩ := List.append_inj' (hwhole.trans hsplit) rfl
    cases hd
    exact .inr ⟨he, b, hb, rfl, rfl⟩

/-- There is one way at most to split a line. -/
theorem Split.unique (h : Split line name level) (h' : Split line name' level') :
    name = name' ∧ level = level' := by
  obtain rfl | ⟨p, d, rfl⟩ := line.eq_nil_or_concat'
  · exact absurd (List.append_eq_nil_iff.1 h.whole.symm).1 h.bare.ne_nil
  · obtain ⟨hd, hname, hlevel⟩ | ⟨hd, b, -, hp, hlevel⟩ := h.cases_end <;>
      obtain ⟨hd', hname', hlevel'⟩ | ⟨hd', b', -, hp', hlevel'⟩ := h'.cases_end
    · exact ⟨hname.trans hname'.symm, hlevel.trans hlevel'.symm⟩
    · rw [hd] at hd'
      cases hd'
    · rw [hd] at hd'
      cases hd'
    · obtain ⟨rfl, hb⟩ := List.append_inj' (hp.symm.trans hp') rfl
      cases hb
      exact ⟨rfl, hlevel.trans hlevel'.symm⟩

theorem Split.before_digit {before : List Char} (h : Split (before.reverse ++ [d]) name level)
    (hd : Text.isDigit d = true) :
    ∃ b l rest, before = b :: l :: rest ∧ Text.isBlank b = true ∧ Text.isDigit l = false := by
  have hbare := h.bare
  obtain ⟨hd', -⟩ | ⟨-, b, hb, hp, -⟩ := h.cases_end
  · rw [hd] at hd'
    cases hd'
  · obtain ⟨q, l, rfl⟩ := name.eq_nil_or_concat'.resolve_left hbare.ne_nil
    refine ⟨b, l, q.reverse, ?_, hb, endsBare_concat.1 hbare⟩
    simpa using congrArg List.reverse hp

theorem Matched.unique {r' : Except LineError (String × Int)} (h : Matched line r)
    (h' : Matched line r') : r = r' := by
  cases h with
  | unsplit h =>
    cases h' with
    | unsplit => rfl
    | split h' => exact absurd h' (h _ _)
  | split h =>
    cases h' with
    | unsplit h' => exact absurd h (h' _ _)
    | split h' =>
      obtain ⟨rfl, rfl⟩ := h.unique h'
      rfl

theorem split_of_bare (hflat : '\n' ∉ line) (h : EndsBare line) : Split line line [] where
  whole := (List.append_nil line).symm
  bare := h
  flat hmem := hflat (List.dropLast_subset _ hmem)
  level := .inl rfl

theorem split_of_level (hflat : '\n' ∉ name ++ [b, d]) (h : EndsBare name) (hb : Text.isBlank b = true)
    (hd : Text.isDigit d = true) : Split (name ++ [b, d]) name [b, d] where
  whole := rfl
  bare := h
  flat hmem := hflat (List.mem_append_left _ (List.dropLast_subset _ hmem))
  level := .inr ⟨b, d, rfl, hb, hd⟩

theorem ofParts_bare (htrim : Text.trimChars line = line) :
    ofParts line line [] = .ok (String.ofList line, 1) := by
  simp [ofParts, levelOf, maxLevel, htrim]

theorem matched_readTrimmed (hflat : '\n' ∉ line) (htrim : Text.trimChars line = line) :
    Matched line (readTrimmed line) := by
  rw [readTrimmed]
  split
  · rename_i hrev
    rw [List.reverse_eq_nil_iff] at hrev
    subst hrev
    exact .unsplit fun name level h => absurd (List.append_eq_nil_iff.1 h.whole.symm).1 h.bare.ne_nil
  · rename_i d before hrev
    have hline : line = before.reverse ++ [d] := by simpa using congrArg List.reverse hrev
    split
    · rename_i hd
      have hbare : EndsBare line := by
        rw [hline, endsBare_concat]
        simpa using hd
      rw [← ofParts_bare htrim]
      exact .split (split_of_bare hflat hbare)
    · rename_i hd
      have hd : Text.isDigit d = true := by simpa using hd
      -- The line ends with a digit, and so all depends on the two characters before it.
      split
      · rename_i b l rest
        split
        · rename_i hbl
          obtain ⟨hb, hl⟩ : Text.isBlank b = true ∧ Text.isDigit l = false := by simpa using hbl
          have hline : line = (l :: rest).reverse ++ [b, d] := by simpa using hline
          have hname : EndsBare (l :: rest).reverse := by simpa using hl
          have hmatch := Matched.split (split_of_level (hline ▸ hflat) hname hb hd)
          rw [← hline, ofParts, levelOf] at hmatch
          exact hmatch
        · rename_i hbl
          refine .unsplit fun name level h => ?_
          obtain ⟨b', l', rest', hbefore, hb, hl⟩ := (hline ▸ h).before_digit hd
          cases hbefore
          simp [hb, hl] at hbl
      · rename_i hbefore
        refine .unsplit fun name level h => ?_
        obtain ⟨b, l, rest, rfl, -, -⟩ := (hline ▸ h).before_digit hd
        exact hbefore b l rest rfl

theorem readTrimmed_eq_iff_matched (hflat : '\n' ∉ line) (htrim : Text.trimChars line = line) :
    readTrimmed line = r ↔ Matched line r := by
  have h := matched_readTrimmed hflat htrim
  exact ⟨fun hr => hr ▸ h, h.unique⟩

/-! The shapes of lines -/

structure Leveled (line name : List Char) (k : Nat) : Prop where
  bare : EndsBare name
  digit : k ≤ 9
  whole : ∃ b, Text.isBlank b = true ∧ line = name ++ [b, Nat.digitChar k]

/-- What a line says by its shape. -/
inductive Shaped (line : List Char) : Except LineError (String × Int) → Prop
  | bare (h : EndsBare line) : Shaped line (.ok (String.ofList line, 1))
  | leveled {name : List Char} {k : Nat} (h : Leveled line name k) (bound : k ≤ maxLevel) :
    Shaped line (.ok (String.ofList (Text.trimChars name), k))
  | beyond {name : List Char} {k : Nat} (h : Leveled line name k) (bound : maxLevel < k) :
    Shaped line (.error (.invalidLevel (String.ofList line) k))
  | other (notBare : ¬EndsBare line) (notLeveled : ∀ name k, ¬Leveled line name k) :
    Shaped line (.error (.malformed (String.ofList line)))

theorem Leveled.split (h : Leveled line name k) (hflat : '\n' ∉ line) :
    ∃ b, Split line name [b, Nat.digitChar k] := by
  obtain ⟨b, hb, rfl⟩ := h.whole
  have hvalue := Text.digitValue_eq_some_iff.2 ⟨h.digit, rfl⟩
  exact ⟨b, split_of_level hflat h.bare hb (isDigit_of_digitValue hvalue)⟩

theorem Split.leveled (h : Split line name [b, d]) (hd : Text.digitValue 10 d = some k) :
    Leveled line name k := by
  obtain ⟨hk, rfl⟩ := Text.digitValue_eq_some_iff.1 hd
  obtain hlevel | ⟨c, e, hlevel, hc, -⟩ := h.level
  · cases hlevel
  · cases hlevel
    exact ⟨h.bare, hk, b, hc, h.whole⟩

theorem Split.not_bare (h : Split line name [b, d]) : ¬EndsBare line := by
  intro hbare
  obtain rfl := h.whole
  rw [List.append_cons, endsBare_concat] at hbare
  obtain ⟨hd, -, hlevel⟩ | ⟨hd, -⟩ := Split.cases_end (List.append_cons .. ▸ h)
  · cases hlevel
  · rw [hbare] at hd
    cases hd

theorem ofParts_leveled (hd : Text.digitValue 10 d = some k) : ofParts line name [b, d] =
    if k ≤ maxLevel then .ok (String.ofList (Text.trimChars name), (k : Int))
    else .error (.invalidLevel (String.ofList line) k) := by
  rw [ofParts, levelOf, hd]

theorem ofParts_foreign (hd : Text.digitValue 10 d = none) :
    ofParts line name [b, d] = .error (.malformed (String.ofList line)) := by
  rw [ofParts, levelOf, hd]

theorem Matched.shaped (h : Matched line r) (hflat : '\n' ∉ line)
    (htrim : Text.trimChars line = line) : Shaped line r := by
  cases h with
  | unsplit h =>
    refine .other (fun hbare => h _ _ (split_of_bare hflat hbare)) fun name k hlevel => ?_
    obtain ⟨b, hsplit⟩ := hlevel.split hflat
    exact h _ _ hsplit
  | split h =>
    obtain rfl | ⟨b, d, rfl, -, -⟩ := h.level
    · obtain rfl := h.whole.trans (List.append_nil _)
      rw [ofParts_bare htrim]
      exact .bare h.bare
    · cases hd : Text.digitValue 10 d with
      | none =>
        rw [ofParts_foreign hd]
        refine .other h.not_bare fun name' k hlevel => ?_
        obtain ⟨b', hsplit⟩ := hlevel.split hflat
        obtain ⟨-, hparts⟩ := h.unique hsplit
        cases hparts
        rw [Text.digitValue_eq_some_iff.2 ⟨hlevel.digit, rfl⟩] at hd
        cases hd
      | some k =>
        rw [ofParts_leveled hd]
        split
        · exact .leveled (h.leveled hd) ‹_›
        · exact .beyond (h.leveled hd) (Nat.lt_of_not_le ‹_›)

theorem Shaped.matched (h : Shaped line r) (hflat : '\n' ∉ line)
    (htrim : Text.trimChars line = line) : Matched line r := by
  cases h with
  | bare h =>
    rw [← ofParts_bare htrim]
    exact .split (split_of_bare hflat h)
  | leveled h bound =>
    obtain ⟨b, hsplit⟩ := h.split hflat
    have hmatch := Matched.split hsplit
    rwa [ofParts_leveled (Text.digitValue_eq_some_iff.2 ⟨h.digit, rfl⟩), if_pos bound] at hmatch
  | beyond h bound =>
    obtain ⟨b, hsplit⟩ := h.split hflat
    have hmatch := Matched.split hsplit
    rwa [ofParts_leveled (Text.digitValue_eq_some_iff.2 ⟨h.digit, rfl⟩), if_neg (by omega)] at hmatch
  | other notBare notLeveled =>
    by_cases hsplit : ∃ name level, Split line name level
    · obtain ⟨name, level, hsplit⟩ := hsplit
      obtain rfl | ⟨b, d, rfl, -, -⟩ := hsplit.level
      · obtain rfl := hsplit.whole.trans (List.append_nil _)
        exact absurd hsplit.bare notBare
      · have hd : Text.digitValue 10 d = none :=
          Option.eq_none_iff_forall_not_mem.2 fun k hk => notLeveled name k (hsplit.leveled hk)
        rw [← ofParts_foreign hd]
        exact .split hsplit
    · exact .unsplit fun name level h => hsplit ⟨name, level, h⟩

theorem Shaped.endsBare (h : Shaped line (.ok (String.ofList line, 1))) : EndsBare line := by
  generalize hr : (.ok (String.ofList line, 1) : Except LineError (String × Int)) = r at h
  cases h with
  | bare h => exact h
  | @leveled name k h bound =>
    obtain ⟨b, -, hwhole⟩ := h.whole
    have hname : line = Text.trimChars name := String.ofList_injective (Prod.mk.inj (Except.ok.inj hr)).1
    have hle : line.length ≤ name.length := hname ▸ (Text.trimChars_sublist name).length_le
    have hlonger : line.length = name.length + 2 := by rw [hwhole, List.length_append]; rfl
    omega
  | beyond => cases hr
  | other => cases hr

/-! Names -/

theorem Says.name_trimmed {name : String} {level : Int} (h : Says raw name level) :
    name ≠ "" ∧ Text.Trimmed name := by
  have filled {cs : List Char} (hcs : cs ≠ []) : String.ofList cs ≠ "" := fun h => hcs (by simpa using h)
  cases h with
  | @alone p d line ends =>
    refine ⟨filled (by simp), Text.trimmed_iff.2 ?_⟩
    rw [Text.trim, String.toList_ofList, ← line, Text.trimChars_trimChars]
  | @leveled p l b d k line ends blank digit bound =>
    have hname : String.ofList (Text.trimChars (p ++ [l])) = Text.trim (String.ofList (p ++ [l])) := by
      rw [Text.trim, String.toList_ofList]
    refine ⟨filled ?_, hname ▸ Text.trimmed_trim _⟩
    -- The first character of the name is the first one of the line, and so it is not blank.
    obtain ⟨c, cs, hcs⟩ : ∃ c cs, p ++ [l] = c :: cs := List.exists_cons_of_ne_nil (by simp)
    have hfirst : c ∈ (Text.trimChars raw).head? := by
      have hwhole : p ++ [l, b, d] = c :: (cs ++ [b, d]) := by rw [List.append_cons, hcs, List.cons_append]
      rw [line, hwhole]
      rfl
    have hstart := (Text.trimChars_eq_iff.1 (Text.trimChars_trimChars raw)).1
    have hblank := Text.trimStart_eq_iff.1 hstart c hfirst
    exact List.ne_nil_of_mem (Text.mem_trimChars (hcs ▸ List.mem_cons_self) hblank)

theorem flat_trimChars (hline : '\n' ∉ raw) : '\n' ∉ Text.trimChars raw :=
  fun h => hline ((Text.trimChars_sublist raw).subset h)

theorem read?_eq_iff_matched (hline : '\n' ∉ raw) (hs : ¬Silent raw) :
    read? raw = some r ↔ Matched (Text.trimChars raw) r := by
  have hflat := flat_trimChars hline
  rw [read?_of_not_silent hs, Option.some_inj]
  exact readTrimmed_eq_iff_matched hflat (Text.trimChars_trimChars raw)

theorem read?_eq_iff_shaped (hline : '\n' ∉ raw) (hs : ¬Silent raw) :
    read? raw = some r ↔ Shaped (Text.trimChars raw) r := by
  have hflat := flat_trimChars hline
  have htrim := Text.trimChars_trimChars raw
  rw [read?_eq_iff_matched hline hs]
  exact ⟨fun h => h.shaped hflat htrim, fun h => h.matched hflat htrim⟩

/-- Blank lines and comments say nothing. What any other line says is decided by its shape, and as well by
the pattern; it is a name at level one just when it ends bare. Names are never empty, and trimmed. -/
theorem line_is_read_by_its_shape (hline : '\n' ∉ raw) :
    (read? raw = none ↔ Text.trimChars raw = [] ∨ ∃ rest, Text.trimChars raw = '#' :: rest) ∧
    (¬Silent raw → ∀ r, (read? raw = some r ↔ Shaped (Text.trimChars raw) r) ∧
      (read? raw = some r ↔ Matched (Text.trimChars raw) r)) ∧
    (¬Silent raw → (read? raw = some (.ok (String.ofList (Text.trimChars raw), 1)) ↔
      EndsBare (Text.trimChars raw))) ∧
    ∀ name level, read? raw = some (.ok (name, level)) → name ≠ "" ∧ Text.Trimmed name := by
  refine ⟨read?_eq_none_iff, fun hs r => ?_, fun hs => ?_, fun name level h => ?_⟩
  · exact ⟨read?_eq_iff_shaped hline hs, read?_eq_iff_matched hline hs⟩
  · rw [read?_eq_iff_shaped hline hs]
    exact ⟨Shaped.endsBare, .bare⟩
  · exact (read?_eq_ok_iff.1 h).2.name_trimmed

theorem drone_line_is_read_by_its_shape :
    '\n' ∉ " Mk5 Drone \t5 ".toList ∧
      read? " Mk5 Drone \t5 ".toList = some (.ok ("Mk5 Drone", 5)) := by
  have hline : '\n' ∉ " Mk5 Drone \t5 ".toList := by decide +kernel
  have htrim : Text.trimChars " Mk5 Drone \t5 ".toList = "Mk5 Drone ".toList ++ ['\t', '5'] := by
    decide +kernel
  have hname : String.ofList (Text.trimChars "Mk5 Drone ".toList) = "Mk5 Drone" := by decide +kernel
  have hsays : ¬Silent " Mk5 Drone \t5 ".toList := by
    rw [Silent, htrim]
    simp
  have hshape : Leveled (Text.trimChars " Mk5 Drone \t5 ".toList) "Mk5 Drone ".toList 5 :=
    ⟨⟨' ', by decide +kernel, by decide⟩, by decide, '\t', by decide, htrim⟩
  obtain ⟨-, hread, -⟩ := line_is_read_by_its_shape hline
  refine ⟨hline, (hread hsays _).1.2 ?_⟩
  rw [← hname]
  exact .leveled hshape (by decide)

end Muster.SkillLine
