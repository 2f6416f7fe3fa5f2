import Mathlib.Logic.Relation
import Muster.Proofs.LetterCase
import Muster.Proofs.TagMeaning

/-! What a list of skills asks for does not depend on how it is spelled: on the order of its lines, on
repeats, on letter case, on blanks around lines, on comments. Of a text only the set of its lines counts,
trimmed and in small letters. -/

namespace Muster

namespace Text

variable {l : List Char}

theorem trimChars_concat_of_blank {c : Char} (hc : isBlank c = true) (l : List Char) :
    trimChars (l ++ [c]) = trimChars l := by
  rw [trimChars, trimChars, trimStart, trimStart, List.dropWhile_append]
  split
  · rename_i hl
    rw [List.isEmpty_iff.1 hl, List.dropWhile_cons_of_pos hc]
    rfl
  · exact List.rdropWhile_concat_pos _ _ _ hc

theorem trimChars_chomp (l : List Char) : trimChars (chomp l) = trimChars l := by
  rw [chomp]
  split
  · rename_i hl
    obtain ⟨rest, rfl⟩ := List.getLast?_eq_some_iff.1 hl
    rw [List.dropLast_concat, trimChars_concat_of_blank (by decide)]
  · rfl

end Text

namespace SkillLine

variable {raw raw' : List Char} {name : String} {level : Int}

def core (raw : List Char) : List Char := Text.lower (Text.trimChars raw)

theorem core_of_lower (h : Text.lower raw = Text.lower raw') : core raw = core raw' := by
  rw [core, core, Text.lower_trimChars, Text.lower_trimChars, h]

theorem silent_iff_core : Silent raw ↔ core raw = [] ∨ ∃ rest, core raw = '#' :: rest := by
  rw [Silent, core, Text.lower]
  refine or_congr List.map_eq_nil_iff.symm ?_
  constructor
  · rintro ⟨rest, hrest⟩
    exact ⟨Text.lower rest, by rw [hrest]; rfl⟩
  · rintro ⟨rest, hrest⟩
    obtain ⟨c, cs, hcs, hc, -⟩ := List.map_eq_cons_iff.1 hrest
    exact ⟨cs, by rw [hcs, Text.toLower_eq_hash_iff.1 hc]⟩

theorem silent_congr (h : core raw = core raw') : Silent raw ↔ Silent raw' := by
  rw [silent_iff_core, silent_iff_core, h]

theorem Says.congr (h : Says raw name level) (hcore : core raw = core raw') :
    ∃ name', Says raw' name' level ∧ name'.toLower = name.toLower := by
  cases h with
  | @alone p d line ends =>
    rw [core, line] at hcore
    obtain ⟨p', q', line', hp, hq⟩ := List.map_eq_append_iff.1 (hcore.symm.trans List.map_append)
    obtain ⟨d', rfl, hd⟩ := List.map_eq_singleton_iff.1 hq
    refine ⟨_, .alone line' ?_, Text.toLower_ofList ?_⟩
    · rw [← Text.isDigit_toLower, hd, Text.isDigit_toLower, ends]
    · rw [Text.lower, Text.lower, List.map_append, List.map_append, hp, hq]
  | @leveled p l b d k line ends blank digit bound =>
    rw [core, line] at hcore
    obtain ⟨p', q', line', hp, hq⟩ := List.map_eq_append_iff.1 (hcore.symm.trans List.map_append)
    obtain ⟨l', q', rfl, hl, hq⟩ := List.map_eq_cons_iff.1 hq
    obtain ⟨b', q', rfl, hb, hq⟩ := List.map_eq_cons_iff.1 hq
    obtain ⟨d', rfl, hd⟩ := List.map_eq_singleton_iff.1 hq
    have hdigit := isDigit_of_digitValue digit
    have hdigit' : Text.isDigit d' = true := by
      rw [← Text.isDigit_toLower, hd, Text.isDigit_toLower, hdigit]
    -- A digit has no other case, and so the level is the same.
    have hsame : d' = d := by
      rw [← Text.toLower_of_isDigit hdigit', hd, Text.toLower_of_isDigit hdigit]
    have hname : Text.lower (p' ++ [l']) = Text.lower (p ++ [l]) := by
      rw [Text.lower, Text.lower, List.map_append, List.map_append, hp, List.map_singleton, hl,
        List.map_singleton]
    refine ⟨_, .leveled line' ?_ ?_ (hsame ▸ digit) bound, Text.toLower_ofList ?_⟩
    · rw [← Text.isDigit_toLower, hl, Text.isDigit_toLower, ends]
    · rw [← Text.isBlank_toLower, hb, Text.isBlank_toLower, blank]
    · rw [Text.lower_trimChars, Text.lower_trimChars, hname]

end SkillLine

namespace SkillList

open SkillLine (Silent core)

variable {ls ls' : List (List Char)} {text text' : String}

/-- A change of the lines of a text that is a matter of spelling. -/
inductive Respells : List (List Char) → List (List Char) → Prop
  | reordered {ls ls' : List (List Char)} (h : ls.Perm ls') : Respells ls ls'
  | repeated {l : List Char} {ls : List (List Char)} (h : l ∈ ls) : Respells ls (l :: ls)
  | recased {l l' : List Char} {ls : List (List Char)} (h : Text.lower l = Text.lower l') :
    Respells (l :: ls) (l' :: ls)
  | silent {l : List Char} {ls : List (List Char)} (h : Silent l) : Respells ls (l :: ls)
  | padded {l l' : List Char} {ls : List (List Char)} (h : Text.trimChars l = Text.trimChars l') :
    Respells (l :: ls) (l' :: ls)
  | returned {l : List Char} {ls : List (List Char)} : Respells (l :: ls) ((l ++ ['\r']) :: ls)

/-- Texts that differ in such changes of what stands between their line feeds, however many. -/
def SameUpToSpelling (text text' : String) : Prop :=
  Relation.EqvGen Respells (Text.pieces '\n' text.toList) (Text.pieces '\n' text'.toList)

def gist (ls : List (List Char)) : Set (List Char) := {w | ∃ raw ∈ ls, ¬Silent raw ∧ core raw = w}

theorem gist_append (ls ls' : List (List Char)) : gist (ls ++ ls') = gist ls ∪ gist ls' := by
  ext w
  simp only [gist, List.mem_append, or_and_right, exists_or]
  rfl

theorem gist_cons (l : List Char) (ls : List (List Char)) : gist (l :: ls) = gist [l] ∪ gist ls :=
  gist_append [l] ls

theorem gist_singleton_of_silent {l : List Char} (h : Silent l) : gist [l] = ∅ := by
  simp [gist, h]

theorem gist_singleton_congr {l l' : List Char} (h : core l = core l') : gist [l] = gist [l'] := by
  simp only [gist, List.mem_singleton, exists_eq_left, SkillLine.silent_congr h, h]

/-- No respelling changes what counts. -/
theorem Respells.gist_eq (h : Respells ls ls') : gist ls = gist ls' := by
  cases h with
  | reordered h => simp only [gist, h.mem_iff]
  | @repeated l ls h =>
    rw [gist_cons, Set.union_eq_self_of_subset_left]
    rintro w ⟨raw, hraw, hw⟩
    exact ⟨raw, List.mem_singleton.1 hraw ▸ h, hw⟩
  | @recased l l' ls h => rw [gist_cons, gist_cons l', gist_singleton_congr (SkillLine.core_of_lower h)]
  | silent h => rw [gist_cons, gist_singleton_of_silent h, Set.empty_union]
  | @padded l l' ls h =>
    have hcore : core l = core l' := congrArg Text.lower h
    rw [gist_cons, gist_cons l', gist_singleton_congr hcore]
  | @returned l ls =>
    have hcore : core l = core (l ++ ['\r']) :=
      congrArg Text.lower (Text.trimChars_concat_of_blank (by decide) l).symm
    rw [gist_cons, gist_cons (l ++ ['\r']), gist_singleton_congr hcore]

theorem gist_lines (cs : List Char) : gist (Text.lines cs) = gist (Text.pieces '\n' cs) := by
  have hchomp (ls : List (List Char)) : gist (ls.map Text.chomp) = gist ls := by
    induction ls with
    | nil => rfl
    | cons l ls ih =>
      have hcore : core (Text.chomp l) = core l := congrArg Text.lower (Text.trimChars_chomp l)
      rw [List.map_cons, gist_cons, ih, gist_singleton_congr hcore, ← gist_cons]
  have hlast (l : List Char) : gist ([l].filter fun l => !l.isEmpty) = gist [l] := by
    cases l with
    | nil =>
      have hsilent : Silent [] := .inl rfl
      rw [gist_singleton_of_silent hsilent]
      simp [gist]
    | cons => rfl
  rw [Text.lines]
  obtain hnil | ⟨ps, l, hps⟩ := (Text.pieces '\n' cs).eq_nil_or_concat'
  · rw [hnil]
    rfl
  · rw [hps, List.dropLast_concat, List.getLast?_concat, Option.toList_some, gist_append, hchomp, hlast,
      gist_append]

theorem SameUpToSpelling.gist_eq (h : SameUpToSpelling text text') :
    gist (Text.lines text.toList) = gist (Text.lines text'.toList) := by
  rw [gist_lines, gist_lines]
  rw [SameUpToSpelling] at h
  generalize Text.pieces '\n' text.toList = ls, Text.pieces '\n' text'.toList = ls' at h
  induction h with
  | rel _ _ h => exact h.gist_eq
  | refl => rfl
  | symm _ _ _ ih => exact ih.symm
  | trans _ _ _ _ _ ih ih' => exact ih.trans ih'

theorem exists_line_of_gist_eq (h : gist ls = gist ls') {raw : List Char} (hraw : raw ∈ ls)
    (hs : ¬Silent raw) : ∃ raw' ∈ ls', ¬Silent raw' ∧ core raw = core raw' := by
  have hmem : core raw ∈ gist ls := ⟨raw, hraw, hs, rfl⟩
  rw [h] at hmem
  obtain ⟨raw', hraw', hs', hcore⟩ := hmem
  exact ⟨raw', hraw', hs', hcore.symm⟩

end SkillList

namespace App

open SkillList (SameUpToSpelling gist)

variable {s : Store} {text text' : String}

theorem skillByName?_congr {m n : String} (h : m.toLower = n.toLower) (s : Store) :
    s.skillByName? m = s.skillByName? n := by
  have htrim : (Text.trim m).toLower = (Text.trim n).toLower := by
    rw [Text.toLower_trim, Text.toLower_trim, h]
  have hcollate : (fun e : Int × String => Text.collate e.2 (Text.trim m) == .eq) =
      fun e => Text.collate e.2 (Text.trim n) == .eq := funext fun e => by
    rw [Text.collate_congr htrim]
  rw [Store.skillByName?, Store.skillByName?, hcollate]

theorem says_of_core_eq {raw raw' : List Char} {name : String} {level : Int}
    (h : SkillLine.Says raw name level) (hcore : SkillLine.core raw = SkillLine.core raw') :
    ∃ name', SkillLine.Says raw' name' level ∧ s.skillByName? name' = s.skillByName? name := by
  obtain ⟨name', hsaid', hname⟩ := h.congr hcore
  exact ⟨name', hsaid', skillByName?_congr hname s⟩

theorem asks_of_gist_eq (h : gist (Text.lines text.toList) = gist (Text.lines text'.toList))
    {skill level : Int} (hasks : s.Asks text skill level) : s.Asks text' skill level := by
  obtain ⟨raw, hraw, hs, name, hsaid, hname⟩ := hasks
  obtain ⟨raw', hraw', hs', hcore⟩ := SkillList.exists_line_of_gist_eq h hraw hs
  obtain ⟨name', hsaid', hname'⟩ := says_of_core_eq (s := s) hsaid hcore
  exact ⟨raw', hraw', hs', name', hsaid', hname'.trans hname⟩

theorem readSkills_ok_iff : (∃ rs, readSkills text s = .ok rs) ↔
    ∀ raw ∈ Text.lines text.toList, ¬SkillLine.Silent raw →
      ∃ name level skill, SkillLine.Says raw name level ∧ s.skillByName? name = some skill := by
  refine ⟨fun ⟨rs, h⟩ => (readSkills_eq_ok h).1, fun h => ?_⟩
  have hgood : SkillList.errors (resolved text s) = [] := by
    refine List.filterMap_eq_nil_iff.2 fun r hr => ?_
    obtain ⟨e, he, rfl⟩ := List.mem_map.1 hr
    obtain ⟨raw, hraw, hread⟩ := List.mem_filterMap.1 he
    have hs : ¬SkillLine.Silent raw := by simp [← SkillLine.read?_eq_none_iff, hread]
    obtain ⟨name, level, skill, hsaid, hname⟩ := h raw hraw hs
    rw [SkillLine.read?_eq_ok_iff.2 ⟨hs, hsaid⟩] at hread
    cases hread
    rw [resolve_eq_ok (r := ⟨skill, level⟩).2 ⟨name, rfl, hname⟩]
  rw [readSkills_eq, SkillList.collect, hgood]
  exact ⟨_, rfl⟩

theorem readSkills_ok_of_gist_eq (h : gist (Text.lines text.toList) = gist (Text.lines text'.toList))
    (hok : ∃ rs, readSkills text s = .ok rs) : ∃ rs, readSkills text' s = .ok rs := by
  rw [readSkills_ok_iff] at hok ⊢
  intro raw' hraw' hs'
  obtain ⟨raw, hraw, hs, hcore⟩ := SkillList.exists_line_of_gist_eq h.symm hraw' hs'
  obtain ⟨name, level, skill, hsaid, hname⟩ := hok raw hraw hs
  obtain ⟨name', hsaid', hname'⟩ := says_of_core_eq (s := s) hsaid hcore.symm
  exact ⟨name', level, skill, hsaid', hname'.trans hname⟩

theorem requirements_eq_of_gist_eq (h : gist (Text.lines text.toList) = gist (Text.lines text'.toList))
    {rs rs' : List SkillRequirement} (hread : readSkills text s = .ok rs)
    (hread' : readSkills text' s = .ok rs') : rs = rs' := by
  obtain ⟨-, t, rfl, hhigh⟩ := readSkills_eq_ok hread
  obtain ⟨-, t', rfl, hhigh'⟩ := readSkills_eq_ok hread'
  have hasks (k : Int) : {l | s.Asks text k l} = {l | s.Asks text' k l} :=
    Set.ext fun l => ⟨asks_of_gist_eq h, asks_of_gist_eq h.symm⟩
  have htable : t = t' := by
    refine Table.ext_get? fun k => Option.ext fun l => ?_
    rw [(hhigh k).eq_some_iff, (hhigh' k).eq_some_iff, hasks]
  rw [htable]

/-- Texts that are the same up to the order of lines, repeats, letter case, comments, blanks around lines and
the kind of line ends are both bad, or ask for the same. -/
theorem spelling_does_not_matter (s : Store) (h : SameUpToSpelling text text') :
    (∃ rs, readSkills text s = .ok rs ∧ readSkills text' s = .ok rs) ∨
      ∃ es es', readSkills text s = .error es ∧ readSkills text' s = .error es' := by
  have hgist := h.gist_eq
  cases hread : readSkills text s with
  | ok rs =>
    obtain ⟨rs', hread'⟩ := readSkills_ok_of_gist_eq hgist ⟨rs, hread⟩
    rw [requirements_eq_of_gist_eq hgist hread hread']
    exact .inl ⟨rs', rfl, hread'⟩
  | error es =>
    cases hread' : readSkills text' s with
    | ok rs' =>
      obtain ⟨rs, hok⟩ := readSkills_ok_of_gist_eq hgist.symm ⟨rs', hread'⟩
      rw [hread] at hok
      cases hok
    | error es' => exact .inr ⟨es, es', rfl, rfl⟩

theorem copied_list_is_respelled :
    SameUpToSpelling "Gunnery 3\ngunnery 5" "# guns\r\nGUNNERY 5\r\n Gunnery 3\n Gunnery 3" := by
  have hplain : Text.pieces '\n' "Gunnery 3\ngunnery 5".toList =
      ["Gunnery 3".toList, "gunnery 5".toList] := by decide +kernel
  have hcopied : Text.pieces '\n' "# guns\r\nGUNNERY 5\r\n Gunnery 3\n Gunnery 3".toList =
      ["# guns".toList ++ ['\r'], "GUNNERY 5".toList ++ ['\r'], " Gunnery 3".toList,
        " Gunnery 3".toList] := by decide +kernel
  have hpad : Text.trimChars "Gunnery 3".toList = Text.trimChars " Gunnery 3".toList := by decide +kernel
  have hmove : [" Gunnery 3".toList, " Gunnery 3".toList, "gunnery 5".toList].Perm
      ["gunnery 5".toList, " Gunnery 3".toList, " Gunnery 3".toList] := by decide +kernel
  have hcase : Text.lower "gunnery 5".toList = Text.lower "GUNNERY 5".toList := by decide +kernel
  have hheading : SkillLine.Silent "# guns".toList := .inr ⟨" guns".toList, by decide +kernel⟩
  rw [SameUpToSpelling, hplain, hcopied]
  refine Relation.EqvGen.reflTransGen_le_eqvGen _ _ _ ?_
  exact .head (.padded hpad) <| .head (.repeated List.mem_cons_self) <| .head (.reordered hmove) <|
    .head (.recased hcase) <| .head .returned <| .head (.silent hheading) <| .single .returned

theorem copied_list_reads_alike : SameUpToSpelling "Gunnery 3\ngunnery 5"
      "# guns\r\nGUNNERY 5\r\n Gunnery 3\n Gunnery 3" ∧
    readSkills "# guns\r\nGUNNERY 5\r\n Gunnery 3\n Gunnery 3" gunners.database.store = .ok [⟨3300, 5⟩] := by
  have hplain : readSkills "Gunnery 3\ngunnery 5" gunners.database.store = .ok [⟨3300, 5⟩] := by
    decide +kernel
  refine ⟨copied_list_is_respelled, ?_⟩
  obtain ⟨rs, hrs, hcopied⟩ | ⟨es, es', hes, -⟩ :=
    spelling_does_not_matter gunners.database.store copied_list_is_respelled
  · cases hplain.symm.trans hrs
    exact hcopied
  · cases hplain.symm.trans hes

end App

end Muster
