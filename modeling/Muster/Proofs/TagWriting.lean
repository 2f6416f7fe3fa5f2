import Muster.Proofs.Keeps
import Muster.Proofs.Table
import Muster.Store.Tags

/-! Writing a tag with its requirements leaves exactly those, whatever it asked for before, unless more of
them are to be dropped than one statement can name. -/

namespace Muster.Store

theorem look_apply {α : Type} (f : Store → Except StoreError α) (s : Store) :
    look f s = (f s, s) := by
  rw [look, get_bind_apply]
  cases f s <;> rfl

def stale (t : Table Int Int) (keys : List Int) : List Int := t.keys.filter fun k => !keys.contains k

/-- One statement can name all keys that a list leaves out, beside the row that owns them. -/
def Droppable (t : Table Int Int) (keys : List Int) : Prop := (stale t keys).length < variableLimit

instance (t : Table Int Int) (keys : List Int) : Decidable (Droppable t keys) :=
  inferInstanceAs (Decidable (_ < _))

section

variable {s t : Store} {head : String} {owned : Store → Table Int Int}
  {change : (Table Int Int → Table Int Int) → Action Unit} {keys : List Int}

theorem look_needsVariables (h : keys.length < variableLimit) :
    look (fun _ => needsVariables head keys.length 1) s = (.ok (), s) := by
  rw [look_apply, needsVariables, if_pos (Nat.succ_le_of_lt h)]

theorem dropKeys_eq (h : keys.length < variableLimit) (hchange : change (apart keys) s = (.ok (), t)) :
    dropKeys head owned change keys s = (.ok (among keys (owned s)).size, t) := by
  rw [dropKeys, bind_of_ok (look_needsVariables h), get_bind_apply, bind_of_ok hchange]
  rfl

theorem dropKeys_refused (h : variableLimit ≤ keys.length) :
    dropKeys head owned change keys s = (.error (refusal head keys.length 1), s) := by
  have hrefused : look (fun _ => needsVariables head keys.length 1) s =
      (.error (refusal head keys.length 1), s) := by
    rw [look_apply, needsVariables, if_neg (Nat.not_le_of_lt (Nat.lt_succ_of_le h))]
  exact bind_of_error hrefused

theorem keeps_dropKeys {P : Store → Prop} (h : Keeps P (change (apart keys))) :
    Keeps P (dropKeys head owned change keys) := by
  intro s hs
  obtain hfew | hmany := Nat.lt_or_ge keys.length variableLimit
  · rw [dropKeys, bind_of_ok (look_needsVariables hfew)]
    exact Keeps.bind .get (fun _ => .bind h fun _ => .pure _) s hs
  · rw [dropKeys_refused hmany]
    exact hs

end

def tabled (rs : List SkillRequirement) : Table Int Int := .ofList (rs.map fun r => (r.skillId, r.level))

def reported (id : Int) (rs : List SkillRequirement) : List TagSkill :=
  (rs.map fun r => TagSkill.mk id r.skillId r.level).mergeSort fun a b => a.skillId ≤ b.skillId

def withTag (s : Store) (id : Int) (f : TagRow → TagRow) : Store := { s with tags := s.tags.adjust id f }

theorem putTagSkill_eq {s : Store} {k : TagSkill} (h : s.tags.contains k.tagId = true) :
    putTagSkill k s = (.ok (), s.withTag k.tagId fun row =>
      { row with requirements := row.requirements.insert k.skillId k.level }) := by
  rw [putTagSkill, get_bind_apply, h]
  rfl

theorem forM_putTagSkill {s : Store} {id : Int} (h : s.tags.contains id = true)
    (rs : List SkillRequirement) :
    (rs.map fun r => TagSkill.mk id r.skillId r.level).forM putTagSkill s =
      (.ok (), s.withTag id fun row => { row with
        requirements := (rs.map fun r => (r.skillId, r.level)).foldl (fun t e => t.insert e.1 e.2)
          row.requirements }) := by
  induction rs generalizing s with
  | nil =>
    have hs : s.withTag id (fun row => row) = s := by rw [withTag, Table.adjust_self]
    exact Prod.ext rfl hs.symm
  | cons r rs ih =>
    have hput := putTagSkill_eq (k := ⟨id, r.skillId, r.level⟩) h
    have hc : (s.withTag id fun row => { row with
        requirements := row.requirements.insert r.skillId r.level }).tags.contains id = true := by
      rw [withTag, Table.contains_adjust, h]
    rw [List.map_cons, List.forM, bind_of_ok hput, ih hc, withTag, withTag, withTag,
      Table.adjust_adjust]
    rfl

/-- What was there before and is not listed is dropped. -/
theorem apart_stale (l : List (Int × Int)) (t : Table Int Int) :
    apart (stale t (l.map (·.1))) (l.foldl (fun t e => t.insert e.1 e.2) t) = .ofList l := by
  have hlisted (k : Int) : (l.map (·.1)).contains k = (Table.ofList l).contains k := by
    rw [Table.contains_ofList, Bool.eq_iff_iff]
    simp
  refine Table.ext_get? fun k => ?_
  rw [apart, stale, Table.get?_filter, Table.get?_foldl_insert, List.contains_eq_mem]
  simp only [hlisted, List.mem_filter, Table.mem_keys, Table.contains]
  cases (Table.ofList l).get? k with
  | some v => simp
  | none => cases t.get? k <;> simp

theorem stale_map {β : Type} (key : β → Int) (l : List β) (t : Table Int Int) :
    stale t (l.map key) = t.keys.filter fun k => !l.any fun r => key r == k := by
  refine List.filter_congr fun k _ => ?_
  rw [Bool.not_inj_iff, Bool.eq_iff_iff]
  simp

theorem apart_stale_requirements (t : Table Int Int) (rs : List SkillRequirement) :
    apart (stale t (rs.map (·.skillId)))
      ((rs.map fun r => (r.skillId, r.level)).foldl (fun t e => t.insert e.1 e.2) t) = tabled rs := by
  have h := apart_stale (rs.map fun r => (r.skillId, r.level)) t
  rwa [List.map_map] at h

theorem replaceTagSkills_eq {s : Store} {id : Int} {rs : List SkillRequirement}
    (h : s.tags.contains id = true)
    (hfew : Droppable (s.requirementTable id) (rs.map (·.skillId))) :
    replaceTagSkills id rs s =
      (.ok (reported id rs), s.withTag id fun row => { row with requirements := tabled rs }) := by
  obtain ⟨row, hrow⟩ := Option.isSome_iff_exists.1 h
  have htable : s.requirementTable id = row.requirements := by rw [requirementTable, hrow]; rfl
  have hwhole : (s.tags.adjust id fun row => { row with
        requirements := (rs.map fun r => (r.skillId, r.level)).foldl (fun t e => t.insert e.1 e.2)
          row.requirements }).adjust id (fun row' => { row' with
        requirements := apart (stale row.requirements (rs.map (·.skillId))) row'.requirements }) =
      s.tags.adjust id fun row => { row with requirements := tabled rs } := by
    rw [Table.adjust_adjust]
    refine Table.adjust_congr fun row' hrow' => ?_
    cases hrow.symm.trans hrow'
    rw [apart_stale_requirements]
  rw [replaceTagSkills, get_bind_apply, bind_of_ok (forM_putTagSkill h rs), ← stale_map,
    dropTagSkills, bind_of_ok (dropKeys_eq hfew rfl), htable]
  refine Prod.ext rfl ?_
  exact congrArg (fun tags => { s with tags }) hwhole

theorem replaceTagSkills_refused {s : Store} {id : Int} {rs : List SkillRequirement}
    (h : s.tags.contains id = true)
    (hmany : ¬Droppable (s.requirementTable id) (rs.map (·.skillId))) :
    ∃ t, replaceTagSkills id rs s = (.error (refusal tagSkillsStatement
      (stale (s.requirementTable id) (rs.map (·.skillId))).length 1), t) := by
  rw [replaceTagSkills, get_bind_apply, bind_of_ok (forM_putTagSkill h rs), ← stale_map]
  exact ⟨_, bind_of_error (dropKeys_refused (Nat.le_of_not_lt hmany))⟩

theorem addTag_eq (name : String) (color : Color) (s : Store) :
    addTag name color s = (.ok ⟨s.lastTag + 1, name, color⟩, { s with
      lastTag := s.lastTag + 1
      tags := s.tags.insert (s.lastTag + 1) ⟨name, color.toHex, .empty⟩ }) := rfl

theorem updateTag_eq (t : Tag) (s : Store) :
    updateTag t s = (.ok (s.tags.contains t.id),
      s.withTag t.id fun row => { row with name := t.name, color := t.color.toHex }) := by
  rw [← Table.contains_adjust (fun row : TagRow => { row with name := t.name, color := t.color.toHex })
    s.tags t.id t.id]
  rfl

theorem droppable_empty (keys : List Int) : Droppable .empty keys := by
  rw [Droppable, stale, Table.keys, Table.toList_empty, List.map_nil, List.filter_nil]
  decide

theorem makeTag_eq (name : String) (color : Color) (rs : List SkillRequirement) (s : Store) :
    makeTag name color rs s =
      (.ok ⟨⟨s.lastTag + 1, name, color⟩, reported (s.lastTag + 1) rs⟩,
        { s with
          lastTag := s.lastTag + 1
          tags := s.tags.insert (s.lastTag + 1) ⟨name, color.toHex, tabled rs⟩ }) := by
  have hc : (s.tags.insert (s.lastTag + 1) ⟨name, color.toHex, .empty⟩).contains
      (s.lastTag + 1) = true := by
    simp
  have hfew : Droppable (requirementTable { s with
      lastTag := s.lastTag + 1
      tags := s.tags.insert (s.lastTag + 1) ⟨name, color.toHex, .empty⟩ } (s.lastTag + 1))
      (rs.map (·.skillId)) := by
    rw [requirementTable, Table.get?_insert, if_pos rfl]
    exact droppable_empty _
  rw [makeTag, bind_of_ok (addTag_eq name color s), bind_of_ok (replaceTagSkills_eq hc hfew), withTag,
    Table.insert_adjust]
  rfl

section

variable {s u : Store} {t : Tag} {rs : List SkillRequirement}

def renamed (t : Tag) (row : TagRow) : TagRow := { row with name := t.name, color := t.color.toHex }

theorem remakeTag_of_there (hthere : s.tags.contains t.id = true) :
    remakeTag t rs s =
      (do return some (TagData.mk t (← replaceTagSkills t.id rs))) (s.withTag t.id (renamed t)) := by
  rw [remakeTag, bind_of_ok (updateTag_eq t s), hthere, if_pos rfl]
  rfl

theorem remakeTag_of_none (hnone : s.tags.contains t.id = false) :
    remakeTag t rs s = (.ok none, s) := by
  have hsame : s.tags.adjust t.id (renamed t) = s.tags := Table.adjust_of_contains_eq_false hnone _
  rw [remakeTag, bind_of_ok (updateTag_eq t s), hnone, if_neg Bool.false_ne_true]
  exact Prod.ext rfl (congrArg (fun tags => { s with tags }) hsame)

theorem contains_renamed (hthere : s.tags.contains t.id = true) :
    (s.withTag t.id (renamed t)).tags.contains t.id = true := by
  rw [withTag, Table.contains_adjust, hthere]

theorem requirementTable_renamed (s : Store) (t : Tag) :
    (s.withTag t.id (renamed t)).requirementTable t.id = s.requirementTable t.id := by
  rw [requirementTable, withTag, Table.get?_adjust, if_pos rfl, Option.map_map]
  rfl

theorem remakeTag_eq (hthere : s.tags.contains t.id = true)
    (hfew : Droppable (s.requirementTable t.id) (rs.map (·.skillId))) :
    remakeTag t rs s = (.ok (some ⟨t, reported t.id rs⟩),
      s.withTag t.id fun _ => ⟨t.name, t.color.toHex, tabled rs⟩) := by
  rw [← requirementTable_renamed] at hfew
  rw [remakeTag_of_there hthere, bind_of_ok (replaceTagSkills_eq (contains_renamed hthere) hfew), withTag,
    withTag, Table.adjust_adjust]
  rfl

theorem remakeTag_refused (hthere : s.tags.contains t.id = true)
    (hmany : ¬Droppable (s.requirementTable t.id) (rs.map (·.skillId))) :
    ∃ u, remakeTag t rs s = (.error (refusal tagSkillsStatement
      (stale (s.requirementTable t.id) (rs.map (·.skillId))).length 1), u) := by
  rw [← requirementTable_renamed] at hmany ⊢
  obtain ⟨u, hreplace⟩ := replaceTagSkills_refused (contains_renamed hthere) hmany
  exact ⟨u, by rw [remakeTag_of_there hthere, bind_of_error hreplace]⟩

theorem remakeTag_eq_ok {data : Option TagData} (h : remakeTag t rs s = (.ok data, u)) :
    data = none ∧ s.tags.contains t.id = false ∧ u = s ∨
      data = some ⟨t, reported t.id rs⟩ ∧ s.tags.contains t.id = true ∧
        u = s.withTag t.id fun _ => ⟨t.name, t.color.toHex, tabled rs⟩ := by
  cases hthere : s.tags.contains t.id with
  | true =>
    by_cases hfew : Droppable (s.requirementTable t.id) (rs.map (·.skillId))
    · rw [remakeTag_eq hthere hfew] at h
      cases h
      exact .inr ⟨rfl, rfl, rfl⟩
    · obtain ⟨u, hrefused⟩ := remakeTag_refused hthere hfew
      rw [hrefused] at h
      cases h
  | false =>
    rw [remakeTag_of_none hthere] at h
    cases h
    exact .inl ⟨rfl, rfl, rfl⟩

end

def withoutTag (s : Store) (id : Int) : Store :=
  { s with
    tags := s.tags.erase id
    roles := s.roles.map fun _ row => { row with links := row.links.erase id } }

theorem dropTag_eq (id : Int) (s : Store) :
    dropTag id s = (.ok (s.tags.contains id), s.withoutTag id) := rfl

end Muster.Store
