import Mathlib.Order.Bounds.Basic
import Muster.App.Commands
import Muster.Proofs.Table

/-! What the text of a skill list asks for: of each named skill, the highest level in it. -/

namespace Muster

namespace SkillLine

def Silent (raw : List Char) : Prop :=
  Text.trimChars raw = [] ∨ ∃ rest, Text.trimChars raw = '#' :: rest

/-- A line that does not end with a digit is a name, at level one. In any other the name ends before a
blank and the digit of the level. -/
inductive Says (raw : List Char) : String → Int → Prop
  | alone {p : List Char} {d : Char} (line : Text.trimChars raw = p ++ [d])
    (ends : Text.isDigit d = false) : Says raw (String.ofList (p ++ [d])) 1
  | leveled {p : List Char} {l b d : Char} {k : Nat} (line : Text.trimChars raw = p ++ [l, b, d])
    (ends : Text.isDigit l = false) (blank : Text.isBlank b = true)
    (digit : Text.digitValue 10 d = some k) (bound : k ≤ maxLevel) :
    Says raw (String.ofList (Text.trimChars (p ++ [l]))) k

theorem isDigit_of_digitValue {d : Char} {k : Nat} (h : Text.digitValue 10 d = some k) :
    Text.isDigit d = true := by
  have hd : 0x30 ≤ d.toNat ∧ d.toNat < 0x30 + 10 := by
    rw [Text.digitValue] at h
    grind
  simp [Text.isDigit, Text.zeros, hd]

theorem says_of_readTrimmed {raw : List Char} {name : String} {level : Int}
    (h : readTrimmed (Text.trimChars raw) = .ok (name, level)) : Says raw name level := by
  rw [readTrimmed] at h
  split at h
  · cases h
  · rename_i d before hrev
    have hline : Text.trimChars raw = before.reverse ++ [d] := by
      simpa using congrArg List.reverse hrev
    split at h
    · rename_i hd
      cases h
      rw [hline]
      exact .alone hline (by simpa using hd)
    · split at h
      · rename_i b l rest
        split at h
        · rename_i hbl
          have hline' : Text.trimChars raw = rest.reverse ++ [l, b, d] := by simpa using hline
          have hbl' : Text.isBlank b = true ∧ Text.isDigit l = false := by simpa using hbl
          split at h
          · rename_i k hk
            split at h
            · cases h
              rw [List.reverse_cons]
              exact .leveled hline' hbl'.2 hbl'.1 hk ‹_›
            · cases h
          · cases h
        · cases h
      · cases h

theorem Says.readTrimmed_eq {raw : List Char} {name : String} {level : Int} (h : Says raw name level) :
    readTrimmed (Text.trimChars raw) = .ok (name, level) := by
  cases h with
  | alone line ends => simp [readTrimmed, line, ends]
  | leveled line ends blank digit bound =>
    simp [readTrimmed, line, ends, blank, digit, bound, isDigit_of_digitValue digit]

theorem Says.unique {raw : List Char} {name name' : String} {level level' : Int}
    (h : Says raw name level) (h' : Says raw name' level') : name = name' ∧ level = level' := by
  have he := h.readTrimmed_eq.symm.trans h'.readTrimmed_eq
  cases he
  exact ⟨rfl, rfl⟩

theorem read?_eq_none_iff {raw : List Char} : read? raw = none ↔ Silent raw := by
  rw [read?, Silent]
  split <;> simp_all

theorem read?_of_not_silent {raw : List Char} (h : ¬Silent raw) :
    read? raw = some (readTrimmed (Text.trimChars raw)) := by
  rw [Silent] at h
  rw [read?]
  split <;> simp_all

theorem read?_eq_ok_iff {raw : List Char} {name : String} {level : Int} :
    read? raw = some (.ok (name, level)) ↔ ¬Silent raw ∧ Says raw name level := by
  constructor
  · intro h
    have hs : ¬Silent raw := by simp [← read?_eq_none_iff, h]
    rw [read?_of_not_silent hs, Option.some_inj] at h
    exact ⟨hs, says_of_readTrimmed h⟩
  · rintro ⟨hs, h⟩
    rw [read?_of_not_silent hs, h.readTrimmed_eq]

end SkillLine

namespace SkillList

/-- An optional level is the highest of some levels, or there are none. -/
def Highest : Option Int → Set Int → Prop
  | none, levels => levels = ∅
  | some l, levels => IsGreatest levels l

theorem Highest.eq_some_iff {o : Option Int} {levels : Set Int} (h : Highest o levels) {l : Int} :
    o = some l ↔ IsGreatest levels l := by
  cases o with
  | none =>
    have hn : levels = ∅ := h
    simp [hn, IsGreatest]
  | some m => exact ⟨fun hm => by cases hm; exact h, fun hl => by rw [h.unique hl]⟩

theorem Highest.insert {o : Option Int} {levels : Set Int} (h : Highest o levels) (n : Int) :
    Highest (some (o.elim n (max · n))) {l | l ∈ levels ∨ l = n} := by
  cases o with
  | none =>
    have hn : levels = ∅ := h
    simp [Highest, hn, IsGreatest]
  | some m =>
    obtain ⟨hm, hub⟩ : IsGreatest levels m := h
    constructor
    · obtain hle | hle := le_total n m
      · exact .inl (by simpa [hle] using hm)
      · exact .inr (max_eq_right hle)
    · rintro l (hl | rfl)
      · exact le_trans (hub hl) (le_max_left m n)
      · exact le_max_right m l

theorem highest_raise {t : Table Int Int} {asked : Int → Set Int}
    (h : ∀ k, Highest (t.get? k) (asked k)) (r : SkillRequirement) (k : Int) :
    Highest ((raise t r).get? k) {l | l ∈ asked k ∨ ⟨k, l⟩ = r} := by
  obtain ⟨skill, level⟩ := r
  rw [raise, Table.get?_insert]
  by_cases hk : k = skill
  · subst hk
    simpa using (h k).insert level
  · simpa [hk] using h k

theorem highest_foldl_raise (rs : List SkillRequirement) {t : Table Int Int} {asked : Int → Set Int}
    (h : ∀ k, Highest (t.get? k) (asked k)) (k : Int) :
    Highest ((rs.foldl raise t).get? k) {l | l ∈ asked k ∨ ⟨k, l⟩ ∈ rs} := by
  induction rs generalizing t asked with
  | nil => simpa using h k
  | cons r rs ih => simpa [or_assoc] using ih (highest_raise h r)

/-- The requirements of a list are a table of the highest levels. -/
theorem requirements_eq (rs : List (Except LineError SkillRequirement)) :
    ∃ t : Table Int Int, requirements rs = (t.toList.map fun e => ⟨e.1, e.2⟩) ∧
      ∀ k, Highest (t.get? k) {l | .ok ⟨k, l⟩ ∈ rs} := by
  refine ⟨_, rfl, fun k => ?_⟩
  have hempty (k : Int) : Highest ((Table.empty : Table Int Int).get? k) ∅ := rfl
  have h := highest_foldl_raise (rs.filterMap Except.toOption) hempty k
  have hmem (l : Int) : ⟨k, l⟩ ∈ rs.filterMap Except.toOption ↔ .ok ⟨k, l⟩ ∈ rs := by
    rw [List.mem_filterMap]
    constructor
    · rintro ⟨_ | q, hq, hk⟩
      · cases hk
      · cases hk
        exact hq
    · exact fun hl => ⟨_, hl, rfl⟩
  simpa [hmem] using h

theorem mem_requirements {rs : List (Except LineError SkillRequirement)} {q : SkillRequirement} :
    q ∈ requirements rs ↔ IsGreatest {l | .ok ⟨q.skillId, l⟩ ∈ rs} q.level := by
  obtain ⟨t, ht, hhigh⟩ := requirements_eq rs
  obtain ⟨skill, level⟩ := q
  rw [← (hhigh skill).eq_some_iff, ht, ← Table.mem_toList, List.mem_map]
  constructor
  · rintro ⟨e, he, hq⟩
    cases hq
    exact he
  · exact fun he => ⟨_, he, rfl⟩

theorem exists_mem_requirements {rs : List (Except LineError SkillRequirement)} {skill level : Int}
    (h : .ok ⟨skill, level⟩ ∈ rs) : ∃ q ∈ requirements rs, q.skillId = skill := by
  obtain ⟨t, ht, hhigh⟩ := requirements_eq rs
  have hskill := hhigh skill
  cases hget : t.get? skill with
  | none =>
    rw [hget] at hskill
    exact absurd h (Set.eq_empty_iff_forall_notMem.1 hskill level)
  | some l =>
    rw [ht]
    exact ⟨⟨skill, l⟩, List.mem_map.2 ⟨(skill, l), Table.mem_toList.2 hget, rfl⟩, rfl⟩

theorem collect_eq_ok {rs : List (Except LineError SkillRequirement)} {qs : List SkillRequirement}
    (h : collect rs = .ok qs) : (∀ r ∈ rs, ∃ q, r = .ok q) ∧ qs = requirements rs := by
  rw [collect] at h
  split at h
  · rename_i he
    cases h
    refine ⟨fun r hr => ?_, rfl⟩
    cases r with
    | ok q => exact ⟨q, rfl⟩
    | error e =>
      have hmem : e ∈ errors rs := List.mem_filterMap.2 ⟨.error e, hr, rfl⟩
      rw [he] at hmem
      cases hmem
  · cases h

end SkillList

/-- A line of the text asks for a level of a skill, by a name that is known for it. -/
def Store.Asks (s : Store) (text : String) (skill level : Int) : Prop :=
  ∃ raw ∈ Text.lines text.toList, ¬SkillLine.Silent raw ∧
    ∃ name, SkillLine.Says raw name level ∧ s.skillByName? name = some skill

namespace App

def resolved (text : String) (s : Store) : List (Except LineError SkillRequirement) :=
  (SkillList.entries text).map fun e =>
    (SkillList.resolve (m := Id) (fun name => s.skillByName? name) e).run

theorem readSkills_eq (text : String) (s : Store) :
    readSkills text s = SkillList.collect (resolved text s) :=
  congrArg SkillList.collect List.idRun_mapM

theorem resolve_named (s : Store) (name : String) (level : Int) :
    (SkillList.resolve (m := Id) (fun name => s.skillByName? name) (.ok (name, level))).run =
      (s.skillByName? name).elim (.error (.unknownSkill name)) fun id => .ok ⟨id, level⟩ := by
  cases hname : s.skillByName? name with
  | none =>
    simp only [SkillList.resolve, hname]
    rfl
  | some id =>
    simp only [SkillList.resolve, hname]
    rfl

theorem resolve_eq_ok {s : Store} {e : Except LineError (String × Int)} {r : SkillRequirement} :
    (SkillList.resolve (m := Id) (fun name => s.skillByName? name) e).run = .ok r ↔
      ∃ name, e = .ok (name, r.level) ∧ s.skillByName? name = some r.skillId := by
  obtain ⟨skill, level⟩ := r
  rcases e with e | ⟨name, l⟩
  · simp [SkillList.resolve]
  · rw [resolve_named]
    cases hname : s.skillByName? name with
    | none => simp [hname]
    | some id => simp [hname, and_comm]

theorem ok_mem_resolved {text : String} {s : Store} {r : SkillRequirement} :
    .ok r ∈ resolved text s ↔ s.Asks text r.skillId r.level := by
  simp only [resolved, SkillList.entries, List.mem_map, List.mem_filterMap, resolve_eq_ok]
  constructor
  · rintro ⟨_, ⟨raw, hraw, he⟩, name, rfl, hname⟩
    obtain ⟨hs, hsaid⟩ := SkillLine.read?_eq_ok_iff.1 he
    exact ⟨raw, hraw, hs, name, hsaid, hname⟩
  · rintro ⟨raw, hraw, hs, name, hsaid, hname⟩
    exact ⟨_, ⟨raw, hraw, SkillLine.read?_eq_ok_iff.2 ⟨hs, hsaid⟩⟩, name, rfl, hname⟩

/-- A list that is read names a known skill on each line, and asks for the highest of its levels. -/
theorem readSkills_eq_ok {text : String} {s : Store} {rs : List SkillRequirement}
    (h : readSkills text s = .ok rs) :
    (∀ raw ∈ Text.lines text.toList, ¬SkillLine.Silent raw →
      ∃ name level skill, SkillLine.Says raw name level ∧ s.skillByName? name = some skill) ∧
    ∃ t : Table Int Int, rs = (t.toList.map fun e => ⟨e.1, e.2⟩) ∧
      ∀ k, SkillList.Highest (t.get? k) {l | s.Asks text k l} := by
  rw [readSkills_eq] at h
  obtain ⟨hok, rfl⟩ := SkillList.collect_eq_ok h
  refine ⟨fun raw hraw hs => ?_, ?_⟩
  · have hread := SkillLine.read?_of_not_silent hs
    obtain ⟨r, hr⟩ := hok _ (List.mem_map_of_mem (List.mem_filterMap.2 ⟨raw, hraw, hread⟩))
    obtain ⟨name, he, hname⟩ := resolve_eq_ok.1 hr
    rw [he] at hread
    exact ⟨name, r.level, r.skillId, (SkillLine.read?_eq_ok_iff.1 hread).2, hname⟩
  · obtain ⟨t, ht, hhigh⟩ := SkillList.requirements_eq (resolved text s)
    exact ⟨t, ht, fun k => by simpa only [ok_mem_resolved] using hhigh k⟩

def unknownNames (found : List (String × Option Int)) : List String :=
  SkillList.distinctNames (found.filterMap fun (n, id) => if id.isNone then some n else none)

theorem unresolvedNames_eq (text : String) (s : Store) :
    unresolvedNames text s =
      unknownNames ((SkillList.names text).map fun n => (n, s.skillByName? n)) :=
  congrArg unknownNames (List.idRun_mapM (l := SkillList.names text)
    (f := fun n => do return (n, ← (s.skillByName? n : Id (Option Int)))))

theorem unresolvedNames_of_readSkills {text : String} {s : Store} {rs : List SkillRequirement}
    (h : readSkills text s = .ok rs) : unresolvedNames text s = [] := by
  rw [readSkills_eq] at h
  obtain ⟨hok, -⟩ := SkillList.collect_eq_ok h
  have hknown : ((SkillList.names text).map fun n => (n, s.skillByName? n)).filterMap
      (fun (n, id) => if id.isNone then some n else none) = [] := by
    rw [List.filterMap_map, List.filterMap_eq_nil_iff]
    intro n hn
    obtain ⟨e, he, hname⟩ := List.mem_filterMap.1 hn
    obtain ⟨r, hr⟩ := hok _ (List.mem_map_of_mem he)
    obtain ⟨name, rfl, hskill⟩ := resolve_eq_ok.1 hr
    cases hname
    simp [hskill]
  rw [unresolvedNames_eq, unknownNames, hknown]
  rfl

end App

end Muster
