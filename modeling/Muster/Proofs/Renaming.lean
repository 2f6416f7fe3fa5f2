import Muster.Proofs.LetterCase
import Muster.Proofs.SyncOutcome
import Muster.Proofs.TagMeaning
import Muster.Proofs.TagSaving
import Muster.Proofs.UnknownNames

/-! Which names of a list stay unknown after ESI was asked for them. A skill has one name, and the last one
that an answer gives it takes the place of any other; and so an answer can take a name away. -/

namespace Muster

variable {ω : Type}

def Alike (m n : String) : Prop := Text.collate m n = .eq

theorem alike_of_sameName {m n : String} (h : SkillList.sameName m n = true) : Alike m n := by
  rw [Alike, Text.collate_congr (SkillList.sameName_iff.1 h).symm]
  exact Std.ReflCmp.compare_self

theorem Alike.trans {l m n : String} (h : Alike l m) (h' : Alike m n) : Alike l n :=
  Std.TransCmp.eq_trans h h'

namespace Store

variable {s : Store} {answer : List (Int × String)} {skill : Int} {name n : String}

def Calls (s : Store) (answer : List (Int × String)) (skill : Int) (name : String) : Prop :=
  s.skillNames.get? skill = some name ∨ (skill, name) ∈ answer

def answered (s : Store) (answer : List (Int × String)) : Store :=
  { s with skillNames := answer.foldl (fun t e => t.insert e.1 e.2) s.skillNames }

theorem putSkillNames_eq (answer : List (Int × String)) (s : Store) :
    putSkillNames (answer.map fun (id, name) => SkillName.mk id name) s = (.ok (), s.answered answer) := by
  have hput : (answer.map fun (id, name) => SkillName.mk id name).foldl
      (fun t n => t.insert n.skillId n.name) s.skillNames =
      answer.foldl (fun t e => t.insert e.1 e.2) s.skillNames := List.foldl_map
  rw [answered, ← hput]
  rfl

theorem exists_lastOf (h : (skill, name) ∈ answer) : ∃ other, LastOf Prod.fst answer (skill, other) := by
  have hsome : ((Table.ofList answer).get? skill).isSome = true :=
    (Table.contains_ofList answer skill).trans (List.any_eq_true.2 ⟨_, h, decide_eq_true rfl⟩)
  obtain ⟨other, hother⟩ := Option.isSome_iff_exists.1 hsome
  exact ⟨other, Table.get?_ofList_eq_some.1 hother⟩

/-- A skill has the last name that an answer gives it, or none does and it has the name that it had. -/
theorem get?_answered : (s.answered answer).skillNames.get? skill = some name ↔
    LastOf Prod.fst answer (skill, name) ∨
      (∀ other, (skill, other) ∉ answer) ∧ s.skillNames.get? skill = some name := by
  have hlast : (Table.ofList answer).get? skill = some name ↔ LastOf Prod.fst answer (skill, name) :=
    Table.get?_ofList_eq_some
  have hnone : (Table.ofList answer).get? skill = none ↔ ∀ other, (skill, other) ∉ answer := by
    rw [Table.get?_ofList, Option.map_eq_none_iff, List.find?_eq_none]
    simp only [List.mem_reverse, decide_eq_true_eq, Prod.forall]
    exact ⟨fun h other hmem => h skill other hmem rfl, fun h k other hmem hk => h other (hk ▸ hmem)⟩
  rw [answered, Table.get?_foldl_insert, Option.or_eq_some_iff, hlast, hnone]

theorem skillByName?_eq_none_iff (htrim : Text.Trimmed n) : s.skillByName? n = none ↔
    ∀ skill name, s.skillNames.get? skill = some name → ¬Alike name n := by
  rw [skillByName?, Text.trimmed_iff.1 htrim, Option.map_eq_none_iff, List.find?_eq_none, Prod.forall]
  simp only [Table.mem_toList, beq_iff_eq]
  rfl

/-- Every skill that has the name, or is given it, is called otherwise by the last word of the answer. -/
def Forsaken (s : Store) (answer : List (Int × String)) (n : String) : Prop :=
  ∀ skill name, s.Calls answer skill name → Alike name n →
    ∃ other, LastOf Prod.fst answer (skill, other) ∧ ¬Alike other n

theorem skillByName?_answered (htrim : Text.Trimmed n) :
    (s.answered answer).skillByName? n = none ↔ s.Forsaken answer n := by
  rw [skillByName?_eq_none_iff htrim]
  constructor
  · intro h skill name hcalls halike
    by_cases hgiven : ∃ other, (skill, other) ∈ answer
    · obtain ⟨_, hmem⟩ := hgiven
      obtain ⟨other, hlast⟩ := exists_lastOf hmem
      exact ⟨other, hlast, h skill other (get?_answered.2 (.inl hlast))⟩
    · have hnew := not_exists.1 hgiven
      have hname := get?_answered.2 (.inr ⟨hnew, hcalls.resolve_right (hnew name)⟩)
      exact absurd halike (h skill name hname)
  · intro h skill name hname halike
    have hcalls : s.Calls answer skill name := by
      obtain ⟨before, after, rfl, -⟩ | ⟨-, hname⟩ := get?_answered.1 hname
      · exact .inr (by simp)
      · exact .inl hname
    obtain ⟨other, hlast, hother⟩ := h skill name hcalls halike
    cases hname.symm.trans (get?_answered.2 (.inl hlast))
    exact hother halike

/-- No skill is given a name that differs, by more than the case of letters, from another that it has or is
given. -/
def Steady (s : Store) (answer : List (Int × String)) : Prop :=
  ∀ skill name other, s.Calls answer skill name → (skill, other) ∈ answer →
    SkillList.sameName other name = true

theorem Steady.not_alike (h : s.Steady answer) (hn : s.Forsaken answer n)
    (hcalls : s.Calls answer skill name) : ¬Alike name n := by
  intro halike
  obtain ⟨other, ⟨before, after, rfl, -⟩, hother⟩ := hn skill name hcalls halike
  have hsame := h skill name other hcalls (by simp)
  exact hother ((alike_of_sameName hsame).trans halike)

end Store

namespace Syncer

variable {P : Store → Prop} {c : Scene ω}

theorem resolveIds_eq (y : Syncer ω) {names : List String} (hnames : names ≠ []) (hc : c.database.Kept P) :
    y.resolveIds names c = match y.ask "" (.ids names) c.world with
      | (.ok found, w) => (.ok found.types.length,
          ⟨w, { c.database with store := c.database.store.answered found.types }⟩)
      | (.error h, w) => (.error (h.map .esi), ⟨w, c.database⟩) := by
  have hask := Sync.outside_eq .esi (y.ask "" (.ids names)) c
  rw [resolveIds, if_neg (by simpa using hnames)]
  rcases hr : y.ask "" (.ids names) c.world with ⟨h | found, w⟩
  · rw [hr] at hask
    rw [bind_of_error hask]
  · rw [hr] at hask
    have hput : Sync.inside (Database.run (Store.putSkillNames
        (found.types.map fun (id, name) => SkillName.mk id name))) ⟨w, c.database⟩ =
        (.ok (), ⟨w, { c.database with store := c.database.store.answered found.types }⟩) := by
      rw [Sync.inside_eq (c := ⟨w, c.database⟩) hc, Database.run, Store.putSkillNames_eq]
    rw [bind_of_ok hask, bind_of_ok hput, List.length_map]
    rfl

end Syncer

namespace App

theorem unknownSkill_mem_iff {text n : String} {t : Store} :
    .unknownSkill n ∈ SkillList.badLines (readSkills text t) ↔
      n ∈ SkillList.names text ∧ t.skillByName? n = none := by
  rw [readSkills_eq, SkillList.badLines_collect, SkillList.errors, List.mem_filterMap, SkillList.names,
    List.mem_filterMap]
  constructor
  · rintro ⟨r, hr, hn⟩
    obtain ⟨e, he, rfl⟩ := List.mem_map.1 hr
    rcases e with e | ⟨name, level⟩
    · cases hn
      exact absurd he SkillList.unknownSkill_not_mem_entries
    · rw [resolve_named] at hn
      cases hname : t.skillByName? name with
      | none =>
        rw [hname] at hn
        cases hn
        exact ⟨⟨_, he, rfl⟩, hname⟩
      | some id =>
        rw [hname] at hn
        cases hn
  · rintro ⟨⟨e, he, hn⟩, hname⟩
    rcases e with e | ⟨name, level⟩
    · cases hn
    · cases hn
      refine ⟨_, List.mem_map_of_mem he, ?_⟩
      rw [resolve_named, hname]
      rfl

variable {P : Store → Prop} {s : Session ω}

def answer (a : App ω) (text : String) (s : Session ω) : Except (Halt EsiError) Esi.NamedTypes × ω :=
  match unresolvedNames text s.database.store with
  | [] => (.ok ⟨[]⟩, s.portal.world)
  | names => a.services.ask "" (.ids names) s.portal.world

def named : Except (Halt EsiError) Esi.NamedTypes → List (Int × String)
  | .ok found => found.types
  | .error _ => []

def heard (s : Session ω) (r : Except (Halt EsiError) Esi.NamedTypes) (w : ω) : Session ω :=
  { s with
    portal := { s.portal with world := w }
    database := { s.database with store := s.database.store.answered (named r) } }

/-- A call that fails is passed over, but not one that does not end. -/
theorem sync_tried_resolveIds (a : App ω) (hs : s.database.Kept P) {names : List String}
    (hnames : names ≠ []) (tell : SyncError → PublicError) :
    Command.sync tell (a.syncer.resolveIds names).tried s =
      match a.services.ask "" (.ids names) s.portal.world with
      | (.error .stalled, w) => (.error .stalled, heard s (.error .stalled) w)
      | (.error (.failed e), w) => (.ok (.error (.esi e)), heard s (.error (.failed e)) w)
      | (.ok found, w) => (.ok (.ok found.types.length), heard s (.ok found) w) := by
  have hids := a.syncer.resolveIds_eq hnames (c := ⟨s.portal.world, s.database⟩) hs
  have hask : a.syncer.ask = a.services.ask := rfl
  rw [hask] at hids
  rcases hr : a.services.ask "" (.ids names) s.portal.world with ⟨(e | _) | found, w⟩ <;>
    rw [hr] at hids <;>
    simp only [Command.sync, Work.focus, Work.mapError, Work.tried, hids, Halt.map] <;>
    rfl

theorem resolveSkills_eq (a : App ω) (hs : s.database.Kept P) (text : String) :
    a.resolveSkills text s = match a.answer text s with
      | (.error .stalled, w) => (.error .stalled, heard s (.error .stalled) w)
      | (r, w) => readKnown text (heard s r w) := by
  have hlook := look_ok hs lookupFailure (f := fun s => .ok (unresolvedNames text s)) rfl
  rw [resolveSkills, bind_of_ok hlook]
  cases hnames : unresolvedNames text s.database.store with
  | nil =>
    have hanswer : a.answer text s = (.ok ⟨[]⟩, s.portal.world) := by rw [answer, hnames]
    rw [hanswer]
    rfl
  | cons name names =>
    have hanswer : a.answer text s = a.services.ask "" (.ids (name :: names)) s.portal.world := by
      rw [answer, hnames]
    have hsync := a.sync_tried_resolveIds hs (List.cons_ne_nil name names) fun _ => .new lookupFailure
    have hasks : (!(name :: names).isEmpty) = true := rfl
    rw [hanswer, if_pos hasks]
    rcases hr : a.services.ask "" (.ids (name :: names)) s.portal.world with ⟨(e | _) | found, w⟩ <;>
      rw [hr] at hsync
    · exact bind_of_ok hsync
    · exact bind_of_error hsync
    · exact bind_of_ok hsync

theorem resolveSkills_of_stalled {a : App ω} (hs : s.database.Kept P) {text : String} {w : ω}
    (h : a.answer text s = (.error .stalled, w)) : (a.resolveSkills text s).1 = .error .stalled := by
  rw [a.resolveSkills_eq hs, h]

theorem resolveSkills_of_answer {a : App ω} (hs : s.database.Kept P) {text : String} {w : ω}
    {r : Except (Halt EsiError) Esi.NamedTypes} (h : a.answer text s = (r, w)) (hr : r ≠ .error .stalled) :
    (a.resolveSkills text s).1 = reply (readSkills text (s.database.store.answered (named r))) := by
  have hkept : (heard s r w).database.Kept fun _ => True := hs.of_store trivial
  have hread : a.resolveSkills text s = readKnown text (heard s r w) := by
    rw [a.resolveSkills_eq hs, h]
    rcases r with (e | _) | found
    · rfl
    · exact absurd rfl hr
    · rfl
  rw [hread, readKnown_eq hkept]
  rfl

/-- Once ESI was heard, the names of a list that are told to be unknown are the forsaken ones. So unless the
answer gives a skill different names, or another than it had, no name is told that some skill had before, and
none that is in the answer. -/
theorem names_are_lost_by_renaming_only (a : App ω) (hs : s.database.Kept P) (text : String) :
    (a.answer text s).1 = .error .stalled ∧ (a.resolveSkills text s).1 = .error .stalled ∨
    ∃ found, (a.resolveSkills text s).1 = reply found ∧
      (∀ n, .unknownSkill n ∈ SkillList.badLines found ↔
        n ∈ SkillList.names text ∧ s.database.store.Forsaken (named (a.answer text s).1) n) ∧
      (s.database.store.Steady (named (a.answer text s).1) →
        ∀ n, .unknownSkill n ∈ SkillList.badLines found → s.database.store.skillByName? n = none ∧
          ∀ e ∈ named (a.answer text s).1, SkillList.sameName e.2 n = false) := by
  rcases hanswer : a.answer text s with ⟨r, w⟩
  by_cases hr : r = .error .stalled
  · subst hr
    exact .inl ⟨rfl, resolveSkills_of_stalled hs hanswer⟩
  · have hreply := resolveSkills_of_answer hs hanswer hr
    have hunknown (n : String) : .unknownSkill n ∈ SkillList.badLines
        (readSkills text (s.database.store.answered (named r))) ↔
          n ∈ SkillList.names text ∧ s.database.store.Forsaken (named r) n := by
      rw [unknownSkill_mem_iff]
      exact and_congr_right fun hn => Store.skillByName?_answered (SkillList.trimmed_of_mem_names hn)
    refine .inr ⟨_, hreply, hunknown, fun hsteady n hn => ?_⟩
    obtain ⟨hname, hforsaken⟩ := (hunknown n).1 hn
    refine ⟨?_, fun e he => Bool.eq_false_iff.2 fun hsame => ?_⟩
    · rw [Store.skillByName?_eq_none_iff (SkillList.trimmed_of_mem_names hname)]
      exact fun skill name hget => hsteady.not_alike hforsaken (.inl hget)
    · exact hsteady.not_alike hforsaken (.inr he) (alike_of_sameName hsame)

def answering (types : List (Int × String)) : App Unit :=
  { offline with services := { offline.services with
    ask := fun
      | _, .ids _ => pure ⟨types⟩
      | token, c => offline.services.ask token c } }

theorem gunnery_stays_known : gunners.database.Kept Store.Sound ∧
    ∃ found,
      ((answering [(3386, "Mining")]).resolveSkills "gunnery\nMining\nSailing" gunners).1 = reply found ∧
      .unknownSkill "gunnery" ∉ SkillList.badLines found ∧
      .unknownSkill "Mining" ∉ SkillList.badLines found := by
  have hs : gunners.database.Kept Store.Sound :=
    (Database.Reachable.run (.run .fresh operation_pair) (.putSkillNames _)).sound
  have hunknown : unresolvedNames "gunnery\nMining\nSailing" gunners.database.store =
      ["Mining", "Sailing"] := by decide +kernel
  have hanswer : (answering [(3386, "Mining")]).answer "gunnery\nMining\nSailing" gunners =
      (.ok ⟨[(3386, "Mining")]⟩, ()) := by
    rw [answer, hunknown]
    rfl
  have hsteady : gunners.database.store.Steady [(3386, "Mining")] := by
    intro skill name other hcalls hmem
    cases List.mem_singleton.1 hmem
    obtain hnone | hmem := hcalls
    · cases hnone
    · cases List.mem_singleton.1 hmem
      decide +kernel
  obtain ⟨hstalled, -⟩ | ⟨found, hreply, -, hold⟩ :=
    names_are_lost_by_renaming_only (answering [(3386, "Mining")]) hs "gunnery\nMining\nSailing"
  · rw [hanswer] at hstalled
    cases hstalled
  · rw [hanswer] at hold
    refine ⟨hs, found, hreply, fun hgunnery => ?_, fun hmining => ?_⟩
    · obtain ⟨hnone, -⟩ := hold hsteady _ hgunnery
      have hsome : gunners.database.store.skillByName? "gunnery" = some 3300 := by decide +kernel
      cases hsome.symm.trans hnone
    · obtain ⟨-, hother⟩ := hold hsteady _ hmining
      have hsame : SkillList.sameName "Mining" "Mining" = true := by decide +kernel
      cases hsame.symm.trans (hother (3386, "Mining") (List.mem_singleton_self _))

/-- ESI is asked for one name and answers it with the skill of the other, which has one name only. -/
theorem answer_takes_a_name_away :
    gunners.database.Reachable ∧ gunners.database.store.skillByName? "Gunnery" = some 3300 ∧
      ((answering [(3300, "Mining")]).resolveSkills "Gunnery\nMining" gunners).1 =
        reply (.error [.unknownSkill "Gunnery"]) := by
  have hr : gunners.database.Reachable := .run (.run .fresh operation_pair) (.putSkillNames _)
  have hunknown : unresolvedNames "Gunnery\nMining" gunners.database.store = ["Mining"] := by decide +kernel
  have hanswer : (answering [(3300, "Mining")]).answer "Gunnery\nMining" gunners =
      (.ok ⟨[(3300, "Mining")]⟩, ()) := by
    rw [answer, hunknown]
    rfl
  have hread : readSkills "Gunnery\nMining" (gunners.database.store.answered [(3300, "Mining")]) =
      .error [.unknownSkill "Gunnery"] := by
    decide +kernel
  refine ⟨hr, by decide +kernel, ?_⟩
  rw [resolveSkills_of_answer hr.sound hanswer nofun]
  exact congrArg reply hread

end App

end Muster
