import Mathlib.Data.List.Nodup
import Muster.Proofs.LineGrammar
import Muster.Proofs.Pieces

/-! A list of requirements is written with a line for each, and reads back as it was: unless a name ends
with a digit, for then its line says nothing. -/

namespace Muster

namespace Text

variable {cs : List Char}

theorem lines_of_line (h : '\n' ∉ cs) (hne : cs ≠ []) : lines cs = [cs] := by
  simp [lines, pieces, splitFirst_of_not_mem h, hne]

theorem lines_append (h : '\n' ∉ cs) (rest : List Char) :
    lines (cs ++ '\n' :: rest) = chomp cs :: lines rest := by
  rw [lines, pieces, splitFirst_append h]
  rfl

theorem lines_intercalate {ls : List (List Char)} (hflat : ∀ l ∈ ls, '\n' ∉ l) (hne : ∀ l ∈ ls, l ≠ [])
    (hchomp : ∀ l ∈ ls, chomp l = l) : lines (List.intercalate ['\n'] ls) = ls := by
  induction ls with
  | nil => rfl
  | cons l ls ih =>
    obtain ⟨hl, hls⟩ := List.forall_mem_cons.1 hflat
    obtain ⟨hlne, hlsne⟩ := List.forall_mem_cons.1 hne
    obtain ⟨hlchomp, hlschomp⟩ := List.forall_mem_cons.1 hchomp
    cases ls with
    | nil => rw [List.intercalate_singleton, lines_of_line hl hlne]
    | cons m ls =>
      rw [List.intercalate_cons_cons, List.append_assoc, List.singleton_append, lines_append hl, hlchomp,
        ih hls hlsne hlschomp]

end Text

namespace SkillLine

variable {name : String} {level : Int}

def write (name : String) (level : Int) : String := name ++ " " ++ toString level

/-- A name on one line, with something in it and no blanks around it, that does not begin a comment. -/
structure Nameable (name : String) : Prop where
  filled : name ≠ ""
  trimmed : Text.Trimmed name
  flat : '\n' ∉ name.toList
  silentNot : name.toList.head? ≠ some '#'

theorem toList_write (name : String) (h₀ : 0 ≤ level) (h₅ : level ≤ maxLevel) : ∃ k ≤ maxLevel, level = (k : Int) ∧
    (write name level).toList = name.toList ++ [' ', Nat.digitChar k] := by
  have hdigit : ∀ k ≤ maxLevel, (toString (k : Int)).toList = [Nat.digitChar k] := by decide +kernel
  obtain ⟨k, rfl⟩ := Int.eq_ofNat_of_zero_le h₀
  have hk : k ≤ maxLevel := by omega
  refine ⟨k, hk, rfl, ?_⟩
  simp only [write, String.toList_append, hdigit k hk, List.append_assoc]
  rfl

theorem trimChars_write (h : Nameable name) {k : Nat} (hk : k ≤ maxLevel) :
    Text.trimChars (name.toList ++ [' ', Nat.digitChar k]) = name.toList ++ [' ', Nat.digitChar k] := by
  have hdigit : ∀ k ≤ maxLevel, Text.isBlank (Nat.digitChar k) = false := by decide
  refine Text.trimChars_eq_iff.2 ⟨Text.trimStart_eq_iff.2 ?_, Text.trimEnd_eq_iff.2 ?_⟩
  · rw [List.head?_append_of_ne_nil _ (fun hnil => h.filled (String.toList_eq_nil_iff.1 hnil))]
    exact h.trimmed.1
  · rw [List.append_cons, List.getLast?_concat]
    rintro c ⟨⟩
    exact hdigit k hk

theorem not_silent_write (h : Nameable name) {k : Nat} (hk : k ≤ maxLevel) :
    ¬Silent (name.toList ++ [' ', Nat.digitChar k]) := by
  rw [Silent, trimChars_write h hk]
  rintro (hnil | ⟨rest, hcons⟩)
  · simp at hnil
  · have hhead := congrArg List.head? hcons
    rw [List.head?_append_of_ne_nil _ (fun hnil => h.filled (String.toList_eq_nil_iff.1 hnil))] at hhead
    exact h.silentNot hhead

theorem flat_write (h : Nameable name) {k : Nat} (hk : k ≤ maxLevel) :
    '\n' ∉ name.toList ++ [' ', Nat.digitChar k] := by
  have hdigit : ∀ k ≤ maxLevel, '\n' ∉ [' ', Nat.digitChar k] := by decide
  rw [List.mem_append, not_or]
  exact ⟨h.flat, hdigit k hk⟩

theorem read?_write (h : Nameable name) (hbare : EndsBare name.toList) (h₀ : 0 ≤ level)
    (h₅ : level ≤ maxLevel) : read? (write name level).toList = some (.ok (name, level)) := by
  obtain ⟨k, hk, rfl, hwrite⟩ := toList_write name h₀ h₅
  rw [hwrite, read?_eq_iff_shaped (flat_write h hk) (not_silent_write h hk), trimChars_write h hk]
  have hshape : Leveled (name.toList ++ [' ', Nat.digitChar k]) name.toList k :=
    ⟨hbare, Nat.le_trans hk (by decide), ' ', by decide, rfl⟩
  have hname : String.ofList (Text.trimChars name.toList) = name := Text.trimmed_iff.1 h.trimmed
  have hsays := Shaped.leveled hshape hk
  rwa [hname] at hsays

theorem read?_write_of_not_bare (h : Nameable name) (hbare : ¬EndsBare name.toList) (h₀ : 0 ≤ level)
    (h₅ : level ≤ maxLevel) :
    read? (write name level).toList = some (.error (.malformed (write name level))) := by
  obtain ⟨k, hk, rfl, hwrite⟩ := toList_write name h₀ h₅
  have htext : write name k = String.ofList (name.toList ++ [' ', Nat.digitChar k]) := by
    rw [← hwrite, String.ofList_toList]
  rw [htext, String.toList_ofList, read?_eq_iff_shaped (flat_write h hk) (not_silent_write h hk),
    trimChars_write h hk]
  have hdigit : Text.isDigit (Nat.digitChar k) = true :=
    isDigit_of_digitValue (Text.digitValue_eq_some_iff.2 ⟨Nat.le_trans hk (by decide), rfl⟩)
  refine .other ?_ fun name' k' hlevel => hbare ?_
  · rw [List.append_cons, endsBare_concat, hdigit]
    nofun
  · obtain ⟨b, -, hwhole⟩ := hlevel.whole
    obtain ⟨hname, -⟩ := List.append_inj' hwhole rfl
    rw [hname]
    exact hlevel.bare

end SkillLine

namespace SkillList

variable {m : Type → Type} [Monad m] {lookup : String → m (Option Int)}
  {names : Int → String} {rs : List SkillRequirement}

def write (names : Int → String) (rs : List SkillRequirement) : String :=
  String.intercalate "\n" (rs.map fun r => SkillLine.write (names r.skillId) r.level)

/-- A requirement whose skill has a name that a line can be written for, and which the lookup knows. -/
structure Spelled (lookup : String → m (Option Int)) (names : Int → String) (r : SkillRequirement) :
    Prop where
  nameable : SkillLine.Nameable (names r.skillId)
  bare : SkillLine.EndsBare (names r.skillId).toList
  notNegative : 0 ≤ r.level
  bound : r.level ≤ SkillLine.maxLevel
  known : lookup (names r.skillId) = pure (some r.skillId)

theorem lines_write (h : ∀ r ∈ rs, Spelled lookup names r) : Text.lines (write names rs).toList =
    rs.map fun r => (SkillLine.write (names r.skillId) r.level).toList := by
  have hline (l : List Char) (hl : l ∈ rs.map fun r => (SkillLine.write (names r.skillId) r.level).toList) :
      '\n' ∉ l ∧ l ≠ [] ∧ Text.chomp l = l := by
    obtain ⟨r, hr, rfl⟩ := List.mem_map.1 hl
    obtain ⟨k, hk, -, hwrite⟩ := SkillLine.toList_write (names r.skillId) (h r hr).notNegative
      (h r hr).bound
    rw [hwrite]
    refine ⟨SkillLine.flat_write (h r hr).nameable hk, by simp, ?_⟩
    have hdigit : ∀ k ≤ SkillLine.maxLevel, Nat.digitChar k ≠ '\r' := by decide
    rw [Text.chomp, List.append_cons, List.getLast?_concat, if_neg (by simp [hdigit k hk])]
  rw [write, String.toList_intercalate, List.map_map]
  exact Text.lines_intercalate (fun l hl => (hline l hl).1) (fun l hl => (hline l hl).2.1)
    fun l hl => (hline l hl).2.2

theorem entries_write (h : ∀ r ∈ rs, Spelled lookup names r) :
    entries (write names rs) = rs.map fun r => .ok (names r.skillId, r.level) := by
  rw [entries, lines_write h, List.filterMap_map, ← List.filterMap_eq_map]
  refine List.filterMap_congr fun r hr => ?_
  exact SkillLine.read?_write (h r hr).nameable (h r hr).bare (h r hr).notNegative (h r hr).bound

variable [LawfulMonad m]

theorem mapM_resolve (h : ∀ r ∈ rs, Spelled lookup names r) :
    (rs.map fun r => .ok (names r.skillId, r.level)).mapM (resolve lookup) = pure (rs.map .ok) := by
  induction rs with
  | nil => rfl
  | cons r rs ih =>
    obtain ⟨hr, hrs⟩ := List.forall_mem_cons.1 h
    simp [List.mapM_cons, resolve, hr.known, ih hrs]

theorem collect_ok (rs : List SkillRequirement) :
    collect (rs.map .ok) = .ok (requirements (rs.map .ok)) := by
  have hgood : errors (rs.map .ok) = [] := by simp [errors]
  rw [collect, hgood]

theorem read_write (h : ∀ r ∈ rs, Spelled lookup names r) :
    read lookup (write names rs) = pure (.ok (requirements (rs.map .ok))) := by
  rw [read, entries_write h, mapM_resolve h, pure_bind, collect_ok]

theorem mem_requirements_ok {q : SkillRequirement} : q ∈ requirements (rs.map .ok) ↔
    q ∈ rs ∧ ∀ r ∈ rs, r.skillId = q.skillId → r.level ≤ q.level := by
  have hlevels : {l | (.ok ⟨q.skillId, l⟩ : Except LineError SkillRequirement) ∈ rs.map .ok} =
      {l | ⟨q.skillId, l⟩ ∈ rs} := by simp
  rw [mem_requirements, hlevels]
  constructor
  · rintro ⟨hthere, hbound⟩
    refine ⟨hthere, fun r hr hskill => hbound ?_⟩
    rw [← hskill]
    exact hr
  · rintro ⟨hthere, hbound⟩
    exact ⟨hthere, fun l hl => hbound ⟨q.skillId, l⟩ hl rfl⟩

theorem pairwise_requirements (rs : List (Except LineError SkillRequirement)) :
    (requirements rs).Pairwise fun q r => q.skillId < r.skillId := by
  obtain ⟨t, ht, -⟩ := requirements_eq rs
  rw [ht]
  exact List.pairwise_map.2 (t.ascending.imp fun h => compare_lt_iff_lt.1 h)

theorem requirements_perm (hskills : rs.Pairwise fun q r => q.skillId ≠ r.skillId) :
    (requirements (rs.map .ok)).Perm rs := by
  have hnodup : rs.Nodup := hskills.imp fun hne heq => hne (congrArg _ heq)
  have hascending := pairwise_requirements (rs.map .ok)
  refine (List.perm_ext_iff_of_nodup (hascending.imp fun hlt heq => ?_) hnodup).2 fun q => ?_
  · exact Int.ne_of_lt hlt (congrArg _ heq)
  · rw [mem_requirements_ok]
    refine ⟨And.left, fun hq => ⟨hq, fun r hr hskill => ?_⟩⟩
    have hdistinct : (rs.map SkillRequirement.skillId).Nodup := List.pairwise_map.2 hskills
    rw [List.inj_on_of_nodup_map hdistinct hr hq hskill]

theorem requirements_eq_self (hskills : rs.Pairwise fun q r => q.skillId < r.skillId) :
    requirements (rs.map .ok) = rs := by
  have hperm := requirements_perm (hskills.imp Int.ne_of_lt)
  refine hperm.eq_of_pairwise (fun q r _ _ hqr hrq => ?_) (pairwise_requirements _) hskills
  exact absurd hrq (Int.lt_asymm hqr)

end SkillList

/-- The line for a name and a level says them just when the name ends bare, else it is malformed. So a list
of requirements under such names reads back as the highest levels in it: as itself, if it names no skill
twice, and in its own order, if that is the order of skills. -/
theorem written_requirements_are_read_back :
    (∀ (name : String) (level : Int), SkillLine.Nameable name → 0 ≤ level → level ≤ SkillLine.maxLevel →
      (SkillLine.EndsBare name.toList →
        SkillLine.read? (SkillLine.write name level).toList = some (.ok (name, level))) ∧
      (¬SkillLine.EndsBare name.toList →
        SkillLine.read? (SkillLine.write name level).toList =
          some (.error (.malformed (SkillLine.write name level))))) ∧
    ∀ (m : Type → Type) [Monad m] [LawfulMonad m] (lookup : String → m (Option Int))
      (names : Int → String) (rs : List SkillRequirement),
      (∀ r ∈ rs, SkillList.Spelled lookup names r) →
      ∃ qs, SkillList.read lookup (SkillList.write names rs) = pure (.ok qs) ∧
        (qs.Pairwise fun q r => q.skillId < r.skillId) ∧
        (∀ q, q ∈ qs ↔ q ∈ rs ∧ ∀ r ∈ rs, r.skillId = q.skillId → r.level ≤ q.level) ∧
        ((rs.Pairwise fun q r => q.skillId ≠ r.skillId) → qs.Perm rs) ∧
        ((rs.Pairwise fun q r => q.skillId < r.skillId) → qs = rs) := by
  refine ⟨fun name level h h₀ h₅ => ⟨fun hbare => ?_, fun hbare => ?_⟩, fun m _ _ lookup names rs h => ?_⟩
  · exact SkillLine.read?_write h hbare h₀ h₅
  · exact SkillLine.read?_write_of_not_bare h hbare h₀ h₅
  · exact ⟨_, SkillList.read_write h, SkillList.pairwise_requirements _,
      fun q => SkillList.mem_requirements_ok, SkillList.requirements_perm, SkillList.requirements_eq_self⟩

namespace SkillList

def armoury (id : Int) : String := if id = 3300 then "Gunnery" else "Mk5 Drone"

def armouryLookup (name : String) : Except StoreError (Option Int) :=
  .ok (if name = "Gunnery" then some 3300 else if name = "Mk5 Drone" then some 3436 else none)

theorem nameable_armoury (id : Int) : SkillLine.Nameable (armoury id) ∧
    SkillLine.EndsBare (armoury id).toList := by
  rw [armoury]
  split
  · exact ⟨⟨by decide, Text.trimmed_iff.2 (by decide +kernel), by decide +kernel, by decide +kernel⟩,
      'y', by decide +kernel, by decide⟩
  · exact ⟨⟨by decide, Text.trimmed_iff.2 (by decide +kernel), by decide +kernel, by decide +kernel⟩,
      'e', by decide +kernel, by decide⟩

theorem armoury_is_read_back :
    SkillLine.read? (SkillLine.write "Mk5 Drone" 4).toList = some (.ok ("Mk5 Drone", 4)) ∧
    (∀ r ∈ [⟨3436, 4⟩, ⟨3300, 0⟩], Spelled armouryLookup armoury r) ∧
    ∃ qs, read armouryLookup (write armoury [⟨3436, 4⟩, ⟨3300, 0⟩]) = pure (.ok qs) ∧
      qs.Perm [⟨3436, 4⟩, ⟨3300, 0⟩] := by
  obtain ⟨hline, hlist⟩ := written_requirements_are_read_back
  have hspelled : ∀ r ∈ [⟨3436, 4⟩, ⟨3300, 0⟩], Spelled armouryLookup armoury r := by
    intro r hr
    obtain ⟨hname, hbare⟩ := nameable_armoury r.skillId
    obtain rfl | rfl : r = ⟨3436, 4⟩ ∨ r = ⟨3300, 0⟩ := by simpa using hr
    · exact ⟨hname, hbare, by decide, by decide, congrArg Except.ok (by decide)⟩
    · exact ⟨hname, hbare, by decide, by decide, congrArg Except.ok (by decide)⟩
  obtain ⟨qs, hread, -, -, hperm, -⟩ := hlist _ armouryLookup armoury _ hspelled
  obtain ⟨hname, hbare⟩ := nameable_armoury 3436
  exact ⟨(hline _ 4 hname (by decide) (by decide)).1 hbare, hspelled, qs, hread, hperm (by decide)⟩

end SkillList

namespace SkillLine

/-- A name that ends with a digit has no line. -/
theorem numbered_name_is_not_read_back :
    Nameable "Mk5" ∧ read? (write "Mk5" 3).toList = some (.error (.malformed "Mk5 3")) := by
  have hname : Nameable "Mk5" :=
    ⟨by decide, Text.trimmed_iff.2 (by decide +kernel), by decide +kernel, by decide +kernel⟩
  have hbare : ¬EndsBare "Mk5".toList := by
    rintro ⟨c, hc, hdigit⟩
    have hlast : '5' = c := by simpa using hc
    subst hlast
    exact absurd hdigit (by decide)
  have hwrite : write "Mk5" 3 = "Mk5 3" := by decide +kernel
  have hbounds : (0 : Int) ≤ 3 ∧ (3 : Int) ≤ maxLevel := by decide
  have hread := read?_write_of_not_bare hname hbare hbounds.1 hbounds.2
  exact ⟨hname, hwrite ▸ hread⟩

end SkillLine

end Muster
