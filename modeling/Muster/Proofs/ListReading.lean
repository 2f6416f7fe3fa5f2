import Muster.Proofs.Keeps
import Muster.Proofs.LetterCase
import Muster.Proofs.ListWriting

/-! What a list of skills comes to, line by line, when its names are looked up one after another. The
lookup may fail, and may answer a name in one way now and in another later. -/

namespace Muster

namespace Text

theorem flat_lines {cs l : List Char} (h : l ∈ lines cs) : '\n' ∉ l := by
  rw [lines, List.mem_append, List.mem_map, List.mem_filter, Option.mem_toList] at h
  obtain ⟨p, hp, rfl⟩ | ⟨hl, -⟩ := h
  · have hflat := flat_pieces (List.dropLast_subset _ hp)
    rw [chomp]
    split
    · exact fun hmem => hflat (List.dropLast_subset _ hmem)
    · exact hflat
  · exact flat_pieces (List.mem_of_getLast? hl)

end Text

namespace SkillLine

/-- What a line that is neither blank nor a comment says by its shape. -/
def Tells (raw : List Char) (r : Except LineError (String × Int)) : Prop :=
  ¬Silent raw ∧ Shaped (Text.trimChars raw) r

theorem tells_iff {raw : List Char} {r : Except LineError (String × Int)} (hline : '\n' ∉ raw) :
    Tells raw r ↔ read? raw = some r := by
  by_cases hs : Silent raw
  · rw [Tells, read?_eq_none_iff.2 hs]
    simp [hs]
  · rw [Tells, read?_eq_iff_shaped hline hs]
    exact and_iff_right hs

theorem Tells.level_bounds {raw : List Char} {name : String} {level : Int}
    (h : Tells raw (.ok (name, level))) : 0 ≤ level ∧ level ≤ maxLevel := by
  obtain ⟨-, h⟩ := h
  cases h with
  | bare => decide
  | leveled h bound => omega

end SkillLine

namespace SkillList

open SkillLine (Silent Tells)

variable {α ε σ : Type}

abbrev Lookup (ε σ : Type) := String → ExceptT ε (StateM σ) (Option Int)

def noted (lookup : Lookup ε σ) : Lookup ε (σ × List String) := fun name c =>
  let (r, s) := lookup name c.1
  (r, s, c.2 ++ [name])

/-- What comes of work with a lookup, and which names the lookup is handed. -/
structure Hands (work : (σ : Type) → Lookup ε σ → ExceptT ε (StateM σ) α) (lookup : Lookup ε σ) (s : σ)
    (asked : List String) (r : Except ε α) (t : σ) : Prop where
  result : work σ lookup s = (r, t)
  noted : ∀ log, work _ (noted lookup) (s, log) = (r, t, log ++ asked)

/-- What lines come to: the names that were looked up, the bad lines, and what the others require. -/
structure Tally where
  asked : List String
  bad : List LineError
  good : List SkillRequirement

instance : Append Tally := ⟨fun x y => ⟨x.asked ++ y.asked, x.bad ++ y.bad, x.good ++ y.good⟩⟩

inductive Adds (lookup : Lookup ε σ) (s : σ) (raw : List Char) : Tally → σ → Prop
  | silent (line : Silent raw) : Adds lookup s raw ⟨[], [], []⟩ s
  | bad {e : LineError} (line : Tells raw (.error e)) : Adds lookup s raw ⟨[], [e], []⟩ s
  | unknown {name : String} {level : Int} {t : σ} (line : Tells raw (.ok (name, level)))
    (answer : lookup name s = (.ok none, t)) : Adds lookup s raw ⟨[name], [.unknownSkill name], []⟩ t
  | known {name : String} {level id : Int} {t : σ} (line : Tells raw (.ok (name, level)))
    (answer : lookup name s = (.ok (some id), t)) : Adds lookup s raw ⟨[name], [], [⟨id, level⟩]⟩ t

/-- What lines come to when no lookup fails. -/
inductive Tallies (lookup : Lookup ε σ) : σ → List (List Char) → Tally → σ → Prop
  | done {s : σ} : Tallies lookup s [] ⟨[], [], []⟩ s
  | next {s t u : σ} {raw : List Char} {ls : List (List Char)} {x y : Tally} (first : Adds lookup s raw x t)
    (rest : Tallies lookup t ls y u) : Tallies lookup s (raw :: ls) (x ++ y) u

/-- A line whose lookup is the first to fail, the names up to it, and why it fails. -/
inductive Stops (lookup : Lookup ε σ) (s : σ) : List (List Char) → List String → ε → σ → Prop
  | fails {before after : List (List Char)} {raw : List Char} {y : Tally} {t u : σ} {name : String}
    {level : Int} {e : ε} (through : Tallies lookup s before y t) (line : Tells raw (.ok (name, level)))
    (answer : lookup name t = (.error e, u)) :
    Stops lookup s (before ++ raw :: after) (y.asked ++ [name]) e u

variable {lookup : Lookup ε σ} {s t u : σ} {raw : List Char} {ls : List (List Char)} {x y : Tally}
  {asked log : List String} {e : ε} {text name : String}

/-! Either no lookup fails, or one is the first to fail -/

theorem adds_or_fails (lookup : Lookup ε σ) (s : σ) (hline : '\n' ∉ raw) :
    (∃ x t, Adds lookup s raw x t) ∨
      ∃ name level e t, Tells raw (.ok (name, level)) ∧ lookup name s = (.error e, t) := by
  cases hread : SkillLine.read? raw with
  | none => exact .inl ⟨_, s, .silent (SkillLine.read?_eq_none_iff.1 hread)⟩
  | some r =>
    have htells := (SkillLine.tells_iff hline).2 hread
    obtain e | ⟨name, level⟩ := r
    · exact .inl ⟨_, s, .bad htells⟩
    · rcases hanswer : lookup name s with ⟨e | _ | id, t⟩
      · exact .inr ⟨name, level, e, t, htells, hanswer⟩
      · exact .inl ⟨_, t, .unknown htells hanswer⟩
      · exact .inl ⟨_, t, .known htells hanswer⟩

theorem Stops.cons (first : Adds lookup s raw x t) (h : Stops lookup t ls asked e u) :
    Stops lookup s (raw :: ls) (x.asked ++ asked) e u := by
  obtain ⟨through, line, answer⟩ := h
  rw [← List.append_assoc, ← List.cons_append]
  exact .fails (.next first through) line answer

theorem tallies_or_stops (lookup : Lookup ε σ) (s : σ) (hflat : ∀ raw ∈ ls, '\n' ∉ raw) :
    (∃ y t, Tallies lookup s ls y t) ∨ ∃ asked e t, Stops lookup s ls asked e t := by
  induction ls generalizing s with
  | nil => exact .inl ⟨_, s, .done⟩
  | cons raw ls ih =>
    obtain ⟨hline, hflat⟩ := List.forall_mem_cons.1 hflat
    obtain ⟨x, t, hx⟩ | ⟨name, level, e, t, htells, hanswer⟩ := adds_or_fails lookup s hline
    · obtain ⟨y, u, hy⟩ | ⟨asked, e, u, h⟩ := ih t hflat
      · exact .inl ⟨x ++ y, u, .next hx hy⟩
      · exact .inr ⟨x.asked ++ asked, e, u, h.cons hx⟩
    · exact .inr ⟨_, e, t, .fails .done htells hanswer⟩

/-! Noting the names changes nothing -/

theorem noted_apply {r : Except ε (Option Int)} (h : lookup name s = (r, t)) :
    noted lookup name (s, log) = (r, t, log ++ [name]) := by
  rw [noted, h]

theorem Adds.noted (h : Adds lookup s raw x t) : Adds (noted lookup) (s, log) raw x (t, log ++ x.asked) := by
  cases h with
  | silent line =>
    rw [List.append_nil]
    exact .silent line
  | bad line =>
    rw [List.append_nil]
    exact .bad line
  | unknown line answer => exact .unknown line (noted_apply answer)
  | known line answer => exact .known line (noted_apply answer)

theorem Tallies.noted (h : Tallies lookup s ls y t) :
    Tallies (noted lookup) (s, log) ls y (t, log ++ y.asked) := by
  induction h generalizing log with
  | done =>
    rw [List.append_nil]
    exact .done
  | @next _ _ _ _ _ x y first _ ih =>
    have hasked : log ++ (x ++ y).asked = log ++ x.asked ++ y.asked := (List.append_assoc ..).symm
    rw [hasked]
    exact .next first.noted ih

theorem Stops.noted (h : Stops lookup s ls asked e u) :
    Stops (noted lookup) (s, log) ls asked e (u, log ++ asked) := by
  obtain ⟨through, line, answer⟩ := h
  rw [← List.append_assoc]
  exact .fails through.noted line (noted_apply answer)

/-! Work that follows the lines -/

/-- Work on the parts of lines that hands a lookup the name of each line and does nothing else with it;
`outcome` is what comes of the work when no lookup fails. -/
structure Follows {β γ : Type} (lookup : Lookup ε σ) (parts : List Char → List β)
    (work : β → ExceptT ε (StateM σ) γ) (outcome : List γ → Tally → Prop) : Prop where
  done : outcome [] ⟨[], [], []⟩
  append {qs rs : List γ} {x y : Tally} : outcome qs x → outcome rs y → outcome (qs ++ rs) (x ++ y)
  adds {s t : σ} {raw : List Char} {x : Tally} : '\n' ∉ raw → Adds lookup s raw x t →
    ∃ rs, (parts raw).mapM work s = (.ok rs, t) ∧ outcome rs x
  fails {s t : σ} {raw : List Char} {name : String} {level : Int} {e : ε} : '\n' ∉ raw →
    Tells raw (.ok (name, level)) → lookup name s = (.error e, t) → (parts raw).mapM work s = (.error e, t)

namespace Follows

variable {β γ : Type} {parts : List Char → List β} {work : β → ExceptT ε (StateM σ) γ}
  {outcome : List γ → Tally → Prop}

theorem tallies (hf : Follows lookup parts work outcome) (h : Tallies lookup s ls y t)
    (hflat : ∀ raw ∈ ls, '\n' ∉ raw) :
    ∃ rs, (ls.flatMap parts).mapM work s = (.ok rs, t) ∧ outcome rs y := by
  induction h with
  | done => exact ⟨[], rfl, hf.done⟩
  | next first _ ih =>
    obtain ⟨hline, hflat⟩ := List.forall_mem_cons.1 hflat
    obtain ⟨qs, hqs, hfirst⟩ := hf.adds hline first
    obtain ⟨rs, hrs, hrest⟩ := ih hflat
    refine ⟨qs ++ rs, ?_, hf.append hfirst hrest⟩
    rw [List.flatMap_cons, List.mapM_append, bind_of_ok hqs, bind_of_ok hrs]
    rfl

theorem stops (hf : Follows lookup parts work outcome) (h : Stops lookup s ls asked e t)
    (hflat : ∀ raw ∈ ls, '\n' ∉ raw) : (ls.flatMap parts).mapM work s = (.error e, t) := by
  obtain ⟨through, line, answer⟩ := h
  obtain ⟨hbefore, hline, -⟩ := List.forall_mem_append.1 hflat |>.imp_right List.forall_mem_cons.1
  obtain ⟨rs, hrs, -⟩ := hf.tallies through hbefore
  rw [List.flatMap_append, List.mapM_append, bind_of_ok hrs, List.flatMap_cons, List.mapM_append, bind_assoc]
  exact bind_of_error (hf.fails hline line answer)

end Follows

/-! Reading -/

theorem entries_eq (text : String) : entries text =
    (Text.lines text.toList).flatMap fun raw => (SkillLine.read? raw).toList :=
  List.filterMap_eq_flatMap_toList ..

theorem mapM_resolve_of {o : Option Int} {level : Int} (h : lookup name s = (.ok o, t)) :
    [.ok (name, level)].mapM (resolve lookup) s =
      (.ok [o.elim (.error (.unknownSkill name)) fun id => .ok ⟨id, level⟩], t) := by
  rw [List.mapM_cons, resolve, bind_assoc, bind_of_ok h]
  cases o <;> rfl

theorem mapM_resolve_of_error {level : Int} (h : lookup name s = (.error e, t)) :
    [.ok (name, level)].mapM (resolve lookup) s = (.error e, t) := by
  rw [List.mapM_cons, resolve, bind_assoc, bind_of_error h]

theorem follows_resolve (lookup : Lookup ε σ) :
    Follows lookup (fun raw => (SkillLine.read? raw).toList) (resolve lookup)
      fun rs x => errors rs = x.bad ∧ rs.filterMap Except.toOption = x.good where
  done := ⟨rfl, rfl⟩
  append := by
    rintro qs rs x y ⟨hbad, hgood⟩ ⟨hbad', hgood'⟩
    rw [errors] at hbad hbad'
    rw [errors, List.filterMap_append, List.filterMap_append, hbad, hbad', hgood, hgood']
    exact ⟨rfl, rfl⟩
  adds := by
    intro s t raw x hline h
    cases h with
    | silent line =>
      rw [SkillLine.read?_eq_none_iff.2 line]
      exact ⟨[], rfl, rfl, rfl⟩
    | bad line =>
      rw [(SkillLine.tells_iff hline).1 line]
      exact ⟨_, rfl, rfl, rfl⟩
    | unknown line answer =>
      rw [(SkillLine.tells_iff hline).1 line]
      exact ⟨_, mapM_resolve_of answer, rfl, rfl⟩
    | known line answer =>
      rw [(SkillLine.tells_iff hline).1 line]
      exact ⟨_, mapM_resolve_of answer, rfl, rfl⟩
  fails := by
    intro s t raw name level e hline line answer
    rw [(SkillLine.tells_iff hline).1 line]
    exact mapM_resolve_of_error answer

theorem read_eq (lookup : Lookup ε σ) (text : String) : read lookup text =
    collect <$> ((Text.lines text.toList).flatMap fun raw => (SkillLine.read? raw).toList).mapM
      (resolve lookup) := by
  rw [read, entries_eq, map_eq_pure_bind]

theorem Stops.read_fails (h : Stops lookup s (Text.lines text.toList) asked e t) :
    read lookup text s = (.error e, t) := by
  have hfails := (follows_resolve lookup).stops h fun _ => Text.flat_lines
  rw [read_eq, map_eq_pure_bind, bind_of_error hfails]

/-- One requirement for each skill of some, at the highest of its levels, in the order of skills. -/
structure Merges (good qs : List SkillRequirement) : Prop where
  ascending : qs.Pairwise fun q r => q.skillId < r.skillId
  skills : ∀ id, (∃ q ∈ qs, q.skillId = id) ↔ ∃ r ∈ good, r.skillId = id
  highest : ∀ q ∈ qs, IsGreatest {l | ⟨q.skillId, l⟩ ∈ good} q.level

theorem merges_requirements (good : List SkillRequirement) :
    Merges good (requirements (good.map .ok)) := by
  have hlevels (skill : Int) : {l | (.ok ⟨skill, l⟩ : Except LineError SkillRequirement) ∈ good.map .ok} =
      {l | ⟨skill, l⟩ ∈ good} := by simp
  have hhighest (q : SkillRequirement) (hq : q ∈ requirements (good.map .ok)) :
      IsGreatest {l | ⟨q.skillId, l⟩ ∈ good} q.level := hlevels _ ▸ mem_requirements.1 hq
  refine ⟨pairwise_requirements _, fun id => ⟨?_, ?_⟩, hhighest⟩
  · rintro ⟨q, hq, rfl⟩
    exact ⟨_, (hhighest q hq).1, rfl⟩
  · rintro ⟨r, hr, rfl⟩
    exact exists_mem_requirements (List.mem_map_of_mem hr)

def Tally.told (y : Tally) : Except (List LineError) (List SkillRequirement) :=
  match y.bad with
  | [] => .ok (requirements (y.good.map .ok))
  | es => .error es

theorem Tally.told_of_bad (h : y.bad ≠ []) : y.told = .error y.bad := by
  rw [told]
  split
  · contradiction
  · rfl

theorem Tally.told_of_good (h : y.bad = []) : y.told = .ok (requirements (y.good.map .ok)) := by
  rw [told, h]

theorem Tallies.read_tells (h : Tallies lookup s (Text.lines text.toList) y t) :
    read lookup text s = (.ok y.told, t) := by
  obtain ⟨rs, hrs, hbad, hgood⟩ := (follows_resolve lookup).tallies h fun _ => Text.flat_lines
  have hok : (y.good.map .ok : List (Except LineError SkillRequirement)).filterMap Except.toOption =
      y.good := by
    rw [List.filterMap_map]
    exact List.filterMap_some
  have hrequired : requirements rs = requirements (y.good.map .ok) := by
    rw [requirements, requirements, hgood, hok]
  have htold : collect rs = y.told := by
    rw [collect, hbad]
    cases hy : y.bad with
    | nil => simp only [hrequired, y.told_of_good hy]
    | cons e es =>
      have hne : y.bad ≠ [] := hy ▸ List.cons_ne_nil e es
      simp only [y.told_of_bad hne, hy]
  rw [read_eq, map_eq_pure_bind, bind_of_ok hrs, htold]
  rfl

theorem Tallies.level_bounds (h : Tallies lookup s ls y t) :
    ∀ r ∈ y.good, 0 ≤ r.level ∧ r.level ≤ SkillLine.maxLevel := by
  induction h with
  | done => nofun
  | next first _ ih =>
    refine List.forall_mem_append.2 ⟨?_, ih⟩
    cases first with
    | silent | bad | unknown => nofun
    | known line => exact List.forall_mem_singleton.2 line.level_bounds

/-- A list is read line by line, and the names of its lines are looked up as they come. The first lookup that
fails ends it, whatever was bad before. If none fails, all the bad lines are told; if there are none, each
skill that was named is required at its highest level. -/
theorem list_is_read_line_by_line (lookup : Lookup ε σ) (text : String) (s : σ) :
    ((∃ y t, Tallies lookup s (Text.lines text.toList) y t) ∨
      ∃ asked e t, Stops lookup s (Text.lines text.toList) asked e t) ∧
    (∀ asked e t, Stops lookup s (Text.lines text.toList) asked e t →
      Hands (fun _ lookup => read lookup text) lookup s asked (.error e) t) ∧
    ∀ y t, Tallies lookup s (Text.lines text.toList) y t →
      (y.bad ≠ [] → Hands (fun _ lookup => read lookup text) lookup s y.asked (.ok (.error y.bad)) t) ∧
      (y.bad = [] → ∃ qs, Hands (fun _ lookup => read lookup text) lookup s y.asked (.ok (.ok qs)) t ∧
        Merges y.good qs ∧ ∀ q ∈ qs, 0 ≤ q.level ∧ q.level ≤ SkillLine.maxLevel) := by
  refine ⟨tallies_or_stops lookup s fun _ => Text.flat_lines, fun asked e t h => ?_, fun y t h => ?_⟩
  · exact ⟨h.read_fails, fun log => h.noted.read_fails⟩
  · have hreads : Hands (fun _ lookup => read lookup text) lookup s y.asked (.ok y.told) t :=
      ⟨h.read_tells, fun log => h.noted.read_tells⟩
    refine ⟨fun hbad => y.told_of_bad hbad ▸ hreads, fun hgood => ?_⟩
    have hmerges := merges_requirements y.good
    refine ⟨_, y.told_of_good hgood ▸ hreads, hmerges, fun q hq => ?_⟩
    exact h.level_bounds _ (hmerges.highest q hq).1

def patient : Lookup StoreError Nat := fun name left =>
  match left with
  | 0 => (.error .poisoned, 0)
  | left + 1 => (.ok (if sameName name "Gunnery" then some 3300 else none), left)

theorem patient_gunnery {name : String} (h : sameName name "Gunnery" = true) (n : Nat) :
    patient name (n + 1) = (.ok (some 3300), n) := by
  rw [patient, h]
  rfl

theorem tallies_gunnery {n m : Nat} {y : Tally} (h : Tallies patient n ls y m) :
    Tallies patient (n + 2) ("Gunnery 4".toList :: "gunnery 2".toList :: ls)
      ⟨"Gunnery" :: "gunnery" :: y.asked, y.bad, ⟨3300, 4⟩ :: ⟨3300, 2⟩ :: y.good⟩ m := by
  have hfirst : Tells "Gunnery 4".toList (.ok ("Gunnery", 4)) :=
    (SkillLine.tells_iff (by decide +kernel)).2 (by decide +kernel)
  have hlast : Tells "gunnery 2".toList (.ok ("gunnery", 2)) :=
    (SkillLine.tells_iff (by decide +kernel)).2 (by decide +kernel)
  have hname : sameName "gunnery" "Gunnery" = true := beq_iff_eq.2 (Text.toLower_congr (by decide +kernel))
  exact .next (.known hfirst (patient_gunnery (by decide +kernel) (n + 1)))
    (.next (.known hlast (patient_gunnery hname n)) h)

/-- Two levels of one skill are merged. With a bad line and an unknown skill after them it depends on the
lookup what is told: both of these, or that it failed. -/
theorem gunnery_is_read_while_patience_lasts :
    (∃ qs, Hands (fun _ lookup => read lookup "Gunnery 4\ngunnery 2") patient 2 ["Gunnery", "gunnery"]
      (.ok (.ok qs)) 0 ∧ Merges [⟨3300, 4⟩, ⟨3300, 2⟩] qs) ∧
    Hands (fun _ lookup => read lookup "Gunnery 4\ngunnery 2\nGunnery5\nMining") patient 3
      ["Gunnery", "gunnery", "Mining"] (.ok (.error [.malformed "Gunnery5", .unknownSkill "Mining"])) 0 ∧
    Hands (fun _ lookup => read lookup "Gunnery 4\ngunnery 2\nGunnery5\nMining") patient 2
      ["Gunnery", "gunnery", "Mining"] (.error .poisoned) 0 := by
  have hshort : Text.lines "Gunnery 4\ngunnery 2".toList = ["Gunnery 4".toList, "gunnery 2".toList] := by
    decide +kernel
  have hlong : Text.lines "Gunnery 4\ngunnery 2\nGunnery5\nMining".toList =
      ["Gunnery 4".toList, "gunnery 2".toList, "Gunnery5".toList, "Mining".toList] := by decide +kernel
  have hbad : Tells "Gunnery5".toList (.error (.malformed "Gunnery5")) :=
    (SkillLine.tells_iff (by decide +kernel)).2 (by decide +kernel)
  have hmining : Tells "Mining".toList (.ok ("Mining", 1)) :=
    (SkillLine.tells_iff (by decide +kernel)).2 (by decide +kernel)
  have hunknown : patient "Mining" 1 = (.ok none, 0) := by
    have hother : sameName "Mining" "Gunnery" = false := by decide +kernel
    rw [patient, hother]
    rfl
  refine ⟨?_, ?_, ?_⟩
  · have htally := tallies_gunnery (n := 0) .done
    obtain ⟨-, -, hends⟩ := list_is_read_line_by_line patient "Gunnery 4\ngunnery 2" 2
    obtain ⟨qs, hqs, hmerges, -⟩ := (hends _ 0 (hshort ▸ htally)).2 rfl
    exact ⟨qs, hqs, hmerges⟩
  · have htally := tallies_gunnery (.next (.bad hbad) (.next (.unknown hmining hunknown) .done))
    obtain ⟨-, -, hends⟩ := list_is_read_line_by_line patient "Gunnery 4\ngunnery 2\nGunnery5\nMining" 3
    exact (hends _ 0 (hlong ▸ htally)).1 (List.cons_ne_nil _ _)
  · have hanswer : patient "Mining" 0 = (.error .poisoned, 0) := rfl
    have hthrough := tallies_gunnery (n := 0) (.next (.bad hbad) .done)
    have hstops : Stops patient 2 (_ ++ "Mining".toList :: []) _ .poisoned 0 :=
      .fails hthrough hmining hanswer
    obtain ⟨-, hfails, -⟩ := list_is_read_line_by_line patient "Gunnery 4\ngunnery 2\nGunnery5\nMining" 2
    exact hfails _ _ 0 (hlong ▸ hstops)

end SkillList

end Muster
