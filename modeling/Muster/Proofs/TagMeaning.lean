import Muster.Proofs.Overview
import Muster.Proofs.RoleMatching
import Muster.Proofs.SkillText
import Muster.Proofs.TagWriting

/-! A tag that was made or saved with a text matches just the characters who have trained what the lines
of the text ask for. -/

namespace Muster

variable {ω α : Type}

namespace Store

theorem tabled_toList (t : Table Int Int) : tabled (t.toList.map fun e => ⟨e.1, e.2⟩) = t := by
  refine Table.ext_get? fun k => ?_
  rw [tabled, List.map_map]
  exact (congrArg (fun l => (Table.ofList l).get? k) (List.map_id _)).trans (Table.get?_ofList_toList t k)

/-- The row of a tag asks for what the lines of a text ask for, and each of them names a known skill. -/
structure Spells (s : Store) (row : TagRow) (text : String) : Prop where
  named : ∀ raw ∈ Text.lines text.toList, ¬SkillLine.Silent raw →
    ∃ name level skill, SkillLine.Says raw name level ∧ s.skillByName? name = some skill
  highest : ∀ k, SkillList.Highest (row.requirements.get? k) {l | s.Asks text k l}

theorem spells_of_readSkills {s : Store} {row : TagRow} {text : String} {rs : List SkillRequirement}
    (h : App.readSkills text s = .ok rs) (hrow : row.requirements = tabled rs) : s.Spells row text := by
  obtain ⟨hnamed, t, rfl, hhigh⟩ := App.readSkills_eq_ok h
  refine ⟨hnamed, fun k => ?_⟩
  rw [hrow, tabled_toList]
  exact hhigh k

theorem Spells.mem_requirementsOf {s : Store} {row : TagRow} {text : String} (h : s.Spells row text)
    {id : Int} {k : TagSkill} :
    k ∈ requirementsOf id row ↔ k.tagId = id ∧ IsGreatest {l | s.Asks text k.skillId l} k.level := by
  rw [Store.mem_requirementsOf, (h.highest k.skillId).eq_some_iff]

theorem Spells.metBy_iff {s : Store} {t : TagData} {row : TagRow} {text : String}
    (h : s.Spells row text) (ht : t.skills = requirementsOf t.tag.id row) (levels : SkillLevels) :
    t.MetBy levels ↔ ∀ raw ∈ Text.lines text.toList, ¬SkillLine.Silent raw →
      ∃ name level skill, SkillLine.Says raw name level ∧ s.skillByName? name = some skill ∧
        level ≤ levels.level skill := by
  rw [TagData.MetBy, ht]
  constructor
  · intro hmet raw hraw hs
    obtain ⟨name, level, skill, hsaid, hname⟩ := h.named raw hraw hs
    have hasks : s.Asks text skill level := ⟨raw, hraw, hs, name, hsaid, hname⟩
    have hhigh := h.highest skill
    cases hk : row.requirements.get? skill with
    | none =>
      rw [hk] at hhigh
      exact absurd hasks (Set.eq_empty_iff_forall_notMem.1 hhigh level)
    | some l =>
      rw [hk] at hhigh
      have hle : l ≤ levels.level skill :=
        hmet ⟨t.tag.id, skill, l⟩ (Store.mem_requirementsOf.2 ⟨rfl, hk⟩)
      exact ⟨name, level, skill, hsaid, hname, le_trans (hhigh.2 hasks) hle⟩
  · intro hlines k hk
    obtain ⟨-, hgreatest⟩ := h.mem_requirementsOf.1 hk
    obtain ⟨raw, hraw, hs, name, hsaid, hname⟩ := hgreatest.1
    obtain ⟨name', level', skill', hsaid', hname', hle⟩ := hlines raw hraw hs
    obtain ⟨rfl, rfl⟩ := hsaid.unique hsaid'
    cases hname.symm.trans hname'
    exact hle

end Store

namespace App

variable {s s' : Session ω}

/-! What a successful command has done -/

theorem look_eq_ok (hs : s.database.Kept Store.Sound) {message : String}
    {f : Store → Except StoreError α} {v : α} (h : Command.look message f s = (.ok v, s')) :
    s = s' ∧ f s'.database.store = .ok v := by
  rw [look_eq hs] at h
  cases hf : f s.database.store with
  | error e =>
    rw [hf] at h
    cases h
  | ok w =>
    rw [hf] at h
    cases h
    exact ⟨rfl, hf⟩

def reply :
    Except (List LineError) (List SkillRequirement) → Except (Halt PublicError) (List SkillRequirement)
  | .ok rs => .ok rs
  | .error lines =>
    let texts := String.intercalate "\n" (lines.map LineError.message)
    .error (.failed (.new s!"Invalid skill list:\n{texts}"))

theorem readKnown_eq {P : Store → Prop} (hs : s.database.Kept P) (text : String) :
    (readKnown text : Command ω _) s = (reply (readSkills text s.database.store), s) := by
  have hlook := look_ok hs lookupFailure (f := fun s => .ok (readSkills text s)) rfl
  rw [readKnown, bind_of_ok hlook]
  cases readSkills text s.database.store <;> rfl

theorem readKnown_eq_ok (hs : s.database.Kept Store.Sound) {text : String} {rs : List SkillRequirement}
    (h : readKnown text s = (.ok rs, s')) : readSkills text s'.database.store = .ok rs := by
  rw [readKnown_eq hs] at h
  obtain ⟨hreply, rfl⟩ := Prod.mk.inj h
  cases hread : readSkills text s.database.store with
  | ok qs =>
    rw [hread] at hreply
    cases hreply
    rfl
  | error lines =>
    rw [hread] at hreply
    cases hreply

theorem resolveSkills_eq_ok {a : App ω} (hs : s.database.Kept Store.Sound) {text : String}
    {rs : List SkillRequirement} (h : a.resolveSkills text s = (.ok rs, s')) :
    s'.database.Kept Store.Sound ∧ readSkills text s'.database.store = .ok rs := by
  have hP := Database.invariant_kept Store.Operation.keeps_sound
  refine ⟨(keeps_resolveSkills hP.sync a text).of_run h hs, ?_⟩
  obtain ⟨unknown, t, hlook, h⟩ := bind_eq_ok.1 h
  obtain ⟨rfl, -⟩ := look_eq_ok hs hlook
  split at h
  · obtain ⟨r, t, hsync, h⟩ := bind_eq_ok.1 h
    have ht := (Command.keeps_sync (fun _ => .new lookupFailure)
      (Work.keeps_tried (a.syncer.keeps_resolveIds hP.sync unknown))).of_run hsync hs
    exact readKnown_eq_ok ht h
  · exact readKnown_eq_ok hs h

/-- Commands on tags begin with a name that is not blank and a list that is read; the rest starts from a
session in which the list can be read again. -/
theorem bind_resolveSkills_eq_ok {α : Type} {a : App ω} {field name text : String}
    {f : String → List SkillRequirement → Command ω α} {x : α} (hs : s.database.Kept Store.Sound)
    (h : (do f (← Command.required field name) (← a.resolveSkills text)) s = (.ok x, s')) :
    ∃ given rs t, t.database.Kept Store.Sound ∧ readSkills text t.database.store = .ok rs ∧
      f given rs t = (.ok x, s') := by
  obtain ⟨given, s₁, hname, h⟩ := bind_eq_ok.1 h
  have h₁ := (Command.keeps_required _ _).of_run hname hs
  obtain ⟨rs, t, hrs, h⟩ := bind_eq_ok.1 h
  obtain ⟨ht, hread⟩ := resolveSkills_eq_ok h₁ hrs
  exact ⟨given, rs, t, ht, hread, h⟩

theorem readSkills_congr {s t : Store} (h : s.skillNames = t.skillNames) (text : String) :
    readSkills text s = readSkills text t := by
  have hname (name : String) : s.skillByName? name = t.skillByName? name := by
    rw [Store.skillByName?, h]
    rfl
  rw [readSkills, readSkills, funext hname]

def Written (s : Session ω) (id : Int) (text : String) : Prop :=
  s.database.Kept Store.Sound ∧
    ∃ row, s.database.store.tags.get? id = some row ∧ s.database.store.Spells row text

theorem written_of_row {t : Store} {text : String} {rs : List SkillRequirement} {id : Int}
    (row : TagRow) (hs : s.database.Reachable) (hread : readSkills text t = .ok rs)
    (hnames : s.database.store.skillNames = t.skillNames)
    (hrow : s.database.store.tags.get? id = some row) (hreq : row.requirements = Store.tabled rs) :
    Written s id text := by
  rw [← readSkills_congr hnames] at hread
  exact ⟨hs.sound, row, hrow, Store.spells_of_readSkills hread hreq⟩

theorem written_of_createTag {a : App ω} (hs : s.database.Reachable) {name text : String}
    {color : Option Color} {data : TagData} (h : a.createTag name color text s = (.ok data, s')) :
    Written s' data.tag.id text := by
  have hs' : s'.database.Reachable := by
    have hc := hs.command (.createTag (a := a) name color text)
    rwa [h] at hc
  obtain ⟨name, rs, s₂, h₂, hread, h⟩ := bind_resolveSkills_eq_ok hs.sound h
  obtain ⟨color, s₃, hcolor, h⟩ := bind_eq_ok.1 h
  obtain ⟨-, h₃⟩ := chooseColor_eq_ok hcolor
  have hmake := inside_eq_ok (h₃ ▸ h₂) h
  rw [Store.makeTag_eq, h₃] at hmake
  obtain ⟨hdata, hstore⟩ := Prod.mk.inj hmake
  cases hdata
  refine written_of_row ⟨name, color.toHex, Store.tabled rs⟩ hs' hread ?_ ?_ rfl
  · rw [← hstore]
  · rw [← hstore]
    simp

theorem written_of_updateTag {a : App ω} (hs : s.database.Reachable) {t : Tag} {text : String}
    {data : TagData} (h : a.updateTag t text s = (.ok data, s')) : Written s' data.tag.id text := by
  have hs' : s'.database.Reachable := by
    have hc := hs.command (.updateTag (a := a) t text)
    rwa [h] at hc
  obtain ⟨name, rs, s₂, h₂, hread, h⟩ := bind_resolveSkills_eq_ok hs.sound h
  obtain ⟨found, s₃, hsave, h⟩ := bind_eq_ok.1 h
  have hmake := inside_eq_ok h₂ hsave
  obtain ⟨rfl, -, -⟩ | ⟨rfl, hthere, hstore⟩ := Store.remakeTag_eq_ok hmake
  · cases h
  · cases h
    obtain ⟨row, hrow⟩ := Option.isSome_iff_exists.1 hthere
    refine written_of_row ⟨t.name, t.color.toHex, Store.tabled rs⟩ hs' hread ?_ ?_ rfl
    · rw [hstore]
      rfl
    · rw [hstore, Store.withTag]
      simp [hrow]

theorem createTag_of_readSkills {a : App ω} (hs : s.database.Kept Store.Sound) {name text : String}
    (color : Color) {rs : List SkillRequirement} (hname : Text.isBlankText name = false)
    (hread : readSkills text s.database.store = .ok rs) :
    a.createTag name (some color) text s =
      (.ok ⟨⟨s.database.store.lastTag + 1, Text.trim name, color⟩,
          Store.reported (s.database.store.lastTag + 1) rs⟩,
        { s with database := { s.database with
          store := (Store.makeTag (Text.trim name) color rs s.database.store).2 } }) := by
  have hrequired : (Command.required "Tag name" name : Command ω String) s = (.ok (Text.trim name), s) := by
    rw [Command.required, hname]
    rfl
  have hknown : (readKnown text : Command ω _) s = (.ok rs, s) := by
    rw [readKnown_eq hs, hread]
    rfl
  have hresolve : a.resolveSkills text s = (.ok rs, s) := by
    have hlook := look_ok hs lookupFailure (f := fun s => .ok (unresolvedNames text s)) rfl
    rw [resolveSkills, bind_of_ok hlook, unresolvedNames_of_readSkills hread]
    exact hknown
  have hcolor : a.chooseColor (some color) s = (.ok color, s) := rfl
  rw [createTag, bind_of_ok hrequired, bind_of_ok hresolve, bind_of_ok hcolor, Command.inside,
    hs.locked_eq, Database.atomically_eq _ hs.idle hs.whole, Store.makeTag_eq]

/-- After a tag is made or saved with a text, the overview tells of each character whether its levels
reach what every line of the text asks for, and which of the highest levels are missing. -/
theorem tag_means_its_text {a : App ω} {text : String} {data : TagData} (hs : s.database.Reachable)
    (h : (∃ name color, a.createTag name color text s = (.ok data, s')) ∨
      ∃ t, a.updateTag t text s = (.ok data, s')) :
    ∃ ms : List CharacterMatches, App.overview s' = (.ok ms, s') ∧
      (∀ id, s'.database.store.characters.contains id = true → ∃ m ∈ ms, m.characterId = id) ∧
      ∀ m ∈ ms, ∃ r : TagMatch, (∀ r', (data.tag.id, r') ∈ m.tags ↔ r' = r) ∧
        (r.holds = true ↔ ∀ raw ∈ Text.lines text.toList, ¬SkillLine.Silent raw →
          ∃ name level skill, SkillLine.Says raw name level ∧
            s'.database.store.skillByName? name = some skill ∧
            level ≤ s'.database.store.trained m.characterId skill) ∧
        (r.missing.Pairwise fun k l => k.skillId < l.skillId) ∧
        ∀ k, k ∈ r.missing ↔ k.tagId = data.tag.id ∧
          IsGreatest {l | s'.database.store.Asks text k.skillId l} k.level ∧
          s'.database.store.trained m.characterId k.skillId < k.level := by
  have hw : Written s' data.tag.id text := by
    obtain ⟨name, color, h⟩ | ⟨t, h⟩ := h
    · exact written_of_createTag hs h
    · exact written_of_updateTag hs h
  obtain ⟨hkept, row, hrow, hspells⟩ := hw
  obtain ⟨v, ts, rs, -, hts, -, hoverview, -⟩ := overview_and_matches hkept
  refine ⟨_, hoverview, fun id hid => ?_, fun m hm => ?_⟩
  · have hsome := hkept.store.isSome_character? id
    have hrow : (s'.database.store.characters.get? id).isSome = true := hid
    rw [← hkept.store.find?_roster, hrow, List.find?_isSome] at hsome
    obtain ⟨c, hc, hcid⟩ := hsome
    exact ⟨_, List.mem_map_of_mem hc, of_decide_eq_true hcid⟩
  · obtain ⟨c, hc, rfl⟩ := List.mem_map.1 hm
    obtain ⟨t, hunique, htid, hskills⟩ := hkept.store.eq_of_mem_allTags hts hrow
    have hlevel := Store.level_levels (Store.character?_of_mem_roster hc)
    refine ⟨Matching.tag c.levels t, fun r' => ?_, ?_, ?_, fun k => ?_⟩
    · change _ ∈ ts.map (fun t => (t.tag.id, Matching.tag c.levels t)) ↔ _
      rw [List.mem_map]
      constructor
      · rintro ⟨u, hu, he⟩
        obtain ⟨hid, rfl⟩ := Prod.mk.inj he
        rw [(hunique u).1 ⟨hu, hid⟩]
      · rintro rfl
        exact ⟨t, ((hunique t).2 rfl).1, by rw [htid]⟩
    · rw [Matching.holds_tag, decide_eq_true_iff, hspells.metBy_iff hskills]
      simp only [hlevel]
      rfl
    · exact (hskills ▸ Store.ascending_requirementsOf t.tag.id row).filter _
    · change k ∈ t.skills.filter _ ↔ _
      rw [List.mem_filter, hskills, hspells.mem_requirementsOf, htid, decide_eq_true_iff, hlevel,
        and_assoc]
      rfl

def gunners : Session Unit := { pairSession with
  database := (Database.run (Store.putSkillNames [⟨3300, "Gunnery"⟩]) pairSession.database).2 }

theorem gunners_tag_means_its_text :
    gunners.database.Reachable ∧
    ∃ data s', offline.createTag " Gunners " (some (.rgb 255 0 0)) "# guns\nGunnery 3\ngunnery 5"
        gunners = (.ok data, s') ∧ data.tag = ⟨1, "Gunners", .rgb 255 0 0⟩ ∧
      ∃ ms : List CharacterMatches, App.overview s' = (.ok ms, s') ∧
        ∃ m ∈ ms, m.characterId = 4 ∧ ∃ r, ∀ r', (1, r') ∈ m.tags ↔ r' = r := by
  have hr : gunners.database.Reachable := .run (.run .fresh operation_pair) (.putSkillNames _)
  have hread : readSkills "# guns\nGunnery 3\ngunnery 5" gunners.database.store =
      .ok [⟨3300, 5⟩] := by
    decide +kernel
  have hname : Text.isBlankText " Gunners " = false := by decide
  have htrim : Text.trim " Gunners " = "Gunners" := by decide +kernel
  have hmake := createTag_of_readSkills (a := offline) hr.sound (.rgb 255 0 0) hname hread
  rw [htrim] at hmake
  obtain ⟨ms, hms, hall, hresult⟩ := tag_means_its_text hr (.inl ⟨_, _, hmake⟩)
  obtain ⟨m, hm, hid⟩ := hall 4 rfl
  obtain ⟨r, hr', -⟩ := hresult m hm
  exact ⟨hr, _, _, hmake, rfl, ms, hms, m, hm, hid, r, hr'⟩

end App

end Muster
