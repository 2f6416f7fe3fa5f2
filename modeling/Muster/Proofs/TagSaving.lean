import Muster.Proofs.RoleOrder

/-! A tag is saved with the last of its requirements for each skill and with no others, and is returned
with all that were given. -/

namespace Muster

variable {α β κ : Type}

def LastOf (key : α → κ) (l : List α) (a : α) : Prop :=
  ∃ before after, l = before ++ a :: after ∧ ∀ b ∈ after, key b ≠ key a

theorem lastOf_iff_getLast? [DecidableEq κ] {key : α → κ} {l : List α} {a : α} :
    LastOf key l a ↔ (l.filter fun b => key b = key a).getLast? = some a := by
  constructor
  · rintro ⟨before, after, rfl, hafter⟩
    have hnone : after.filter (fun b => key b = key a) = [] :=
      List.filter_eq_nil_iff.2 fun b hb => by simpa using hafter b hb
    rw [List.filter_append, List.filter_cons_of_pos (by simp), hnone, List.getLast?_concat]
  · intro h
    obtain ⟨found, hfound⟩ := List.getLast?_eq_some_iff.1 h
    obtain ⟨before, rest, rfl, -, hrest⟩ := List.filter_eq_append_iff.1 hfound
    obtain ⟨others, after, rfl, -, -, hafter⟩ := List.filter_eq_cons_iff.1 hrest
    refine ⟨before ++ others, after, (List.append_assoc ..).symm, fun b hb => ?_⟩
    simpa using List.filter_eq_nil_iff.1 hafter b hb

instance [DecidableEq α] [DecidableEq κ] (key : α → κ) (l : List α) (a : α) :
    Decidable (LastOf key l a) :=
  decidable_of_iff _ lastOf_iff_getLast?.symm

theorem lastOf_map {key : α → κ} {f : β → α} {l : List β} {a : α} :
    LastOf key (l.map f) a ↔ ∃ b, f b = a ∧ LastOf (fun b => key (f b)) l b := by
  constructor
  · rintro ⟨before, after, hlist, hlast⟩
    obtain ⟨before, rest, rfl, rfl, hrest⟩ := List.map_eq_append_iff.1 hlist
    obtain ⟨b, after, rfl, rfl, rfl⟩ := List.map_eq_cons_iff.1 hrest
    exact ⟨b, rfl, before, after, rfl, fun c hc => hlast _ (List.mem_map_of_mem hc)⟩
  · rintro ⟨b, rfl, before, after, rfl, hlast⟩
    refine ⟨before.map f, after.map f, by rw [List.map_append, List.map_cons], fun c hc => ?_⟩
    obtain ⟨b', hb', rfl⟩ := List.mem_map.1 hc
    exact hlast b' hb'

theorem lastOf_of_nodup {key : α → κ} {l : List α} (h : (l.map key).Nodup) {a : α} :
    LastOf key l a ↔ a ∈ l := by
  constructor
  · rintro ⟨before, after, rfl, -⟩
    simp
  · intro ha
    obtain ⟨before, after, rfl⟩ := List.append_of_mem ha
    rw [List.map_append, List.map_cons, List.nodup_append] at h
    obtain ⟨-, hrest, -⟩ := h
    refine ⟨before, after, rfl, fun b hb hkey => (List.nodup_cons.1 hrest).1 ?_⟩
    exact hkey ▸ List.mem_map_of_mem hb

namespace Store

variable {s t : Store} {g : Tag} {rs : List SkillRequirement} {id : Int}

/-- A tag is stored with its name, its colour and the last requirement of a list for each skill, and every
other row is as it was. -/
structure Demands (g : Tag) (rs : List SkillRequirement) (s t : Store) : Prop where
  row : ∃ row, t.tags.get? g.id = some row ∧ row.name = g.name ∧ row.color = g.color.toHex
  read : t.tag? g.id = .ok (some g)
  requirements : ∀ k, k ∈ t.allTagSkills ∧ k.tagId = g.id ↔
    k.tagId = g.id ∧ LastOf (·.skillId) rs ⟨k.skillId, k.level⟩
  distinct : ((t.allTagSkills.filter fun k => k.tagId = g.id).map (·.skillId)).Nodup
  others : ∀ i, i ≠ g.id → t.tags.get? i = s.tags.get? i
  elsewhere : ∀ k, k.tagId ≠ g.id → (k ∈ t.allTagSkills ↔ k ∈ s.allTagSkills)
  rest : t = { s with tags := t.tags, lastTag := t.lastTag }

/-- What is returned of a tag that was saved, beside what is listed of it: in both the requirements are in
the order of skills, but only the last one for each skill is listed. -/
structure Tells (g : Tag) (rs : List SkillRequirement) (t : Store) (data entry : TagData) : Prop where
  listed : ∃ ts, t.allTags = .ok ts ∧ ts.filter (fun e => e.tag.id = g.id) = [entry]
  tag : data.tag = g
  same : entry.tag = g
  given : data.skills.Perm (rs.map fun r => ⟨g.id, r.skillId, r.level⟩)
  ordered : data.skills.Pairwise fun k l => k.skillId ≤ l.skillId
  asked : ∀ k, k ∈ entry.skills ↔ k.tagId = g.id ∧ LastOf (·.skillId) rs ⟨k.skillId, k.level⟩
  last : ∀ k, k ∈ entry.skills ↔ LastOf (·.skillId) data.skills k
  rising : entry.skills.Pairwise fun k l => k.skillId < l.skillId

theorem get?_tabled {skill level : Int} :
    (tabled rs).get? skill = some level ↔ LastOf (·.skillId) rs ⟨skill, level⟩ := by
  have hlast : (tabled rs).get? skill = some level ↔
      LastOf (·.1) (rs.map fun r => (r.skillId, r.level)) (skill, level) :=
    Table.get?_ofList_eq_some
  rw [hlast, lastOf_map]
  constructor
  · rintro ⟨⟨_, _⟩, hr, h⟩
    cases hr
    exact h
  · intro h
    exact ⟨_, rfl, h⟩

theorem lastOf_reported {k : TagSkill} :
    LastOf (·.skillId) (reported id rs) k ↔
      k.tagId = id ∧ LastOf (·.skillId) rs ⟨k.skillId, k.level⟩ := by
  rw [lastOf_iff_getLast?, reported, filter_mergeSort_key TagSkill.skillId, ← lastOf_iff_getLast?,
    lastOf_map]
  constructor
  · rintro ⟨r, rfl, h⟩
    exact ⟨rfl, h⟩
  · rintro ⟨rfl, h⟩
    exact ⟨_, rfl, h⟩

def tagRow (g : Tag) (rs : List SkillRequirement) : TagRow := ⟨g.name, g.color.toHex, tabled rs⟩

theorem readTag_tagRow : readTag g.id (tagRow g rs) = .ok g := by
  rw [readTag, tagRow, readColor_toHex]
  rfl

theorem filter_allTagSkills_of_row (hrow : t.tags.get? g.id = some (tagRow g rs)) :
    t.allTagSkills.filter (fun k => k.tagId = g.id) = requirementsOf g.id (tagRow g rs) := by
  rw [filter_allTagSkills, hrow, Option.map_some, Option.getD_some]

theorem mem_requirementsOf_tagRow {k : TagSkill} :
    k ∈ requirementsOf id (tagRow g rs) ↔
      k.tagId = id ∧ LastOf (·.skillId) rs ⟨k.skillId, k.level⟩ := by
  rw [mem_requirementsOf, tagRow, get?_tabled]

theorem demands_of_row (hrow : t.tags.get? g.id = some (tagRow g rs))
    (hothers : ∀ i, i ≠ g.id → t.tags.get? i = s.tags.get? i)
    (hrest : t = { s with tags := t.tags, lastTag := t.lastTag }) : Demands g rs s t where
  row := ⟨tagRow g rs, hrow, rfl, rfl⟩
  read := by
    rw [tag?, hrow, Option.mapM_some, readTag_tagRow]
    rfl
  requirements k := by
    have hmem : k ∈ t.allTagSkills ∧ k.tagId = g.id ↔
        k ∈ t.allTagSkills.filter fun k => k.tagId = g.id := by
      rw [List.mem_filter, decide_eq_true_iff]
    rw [hmem, filter_allTagSkills_of_row hrow, mem_requirementsOf_tagRow]
  distinct := by
    rw [filter_allTagSkills_of_row hrow]
    exact List.pairwise_map.2 ((ascending_requirementsOf _ _).imp Int.ne_of_lt)
  others := hothers
  elsewhere k hk := by rw [mem_allTagSkills, mem_allTagSkills, hothers _ hk]
  rest := hrest

theorem Sound.filter_allTags (h : t.Sound) (hrow : t.tags.get? g.id = some (tagRow g rs)) :
    ∃ ts, t.allTags = .ok ts ∧
      ts.filter (fun e => e.tag.id = g.id) = [⟨g, requirementsOf g.id (tagRow g rs)⟩] := by
  obtain ⟨ts, hts⟩ := h.allTags_ok
  have hlist := hts
  rw [allTags] at hlist
  have hfiltered := filter_of_mapM_eq_ok (p := fun e : TagData => e.tag.id = g.id)
    (q := fun e : Int × TagRow => e.1 = g.id) (fun e data hdata => ?_) hlist
  · rw [filter_sortByName _ hrow] at hfiltered
    obtain ⟨e, rest, he, hrest, hfiltered⟩ := mapM_cons_eq_ok.1 hfiltered
    obtain ⟨tag, htag, he⟩ := exceptBind_eq_ok.1 he
    cases readTag_tagRow.symm.trans htag
    cases hrest
    cases he
    refine ⟨ts, hts, hfiltered.trans ?_⟩
    rw [Table.getD_get?_group, filter_allTagSkills_of_row hrow, List.reverse_nil]
  · obtain ⟨tag, htag, hdata⟩ := exceptBind_eq_ok.1 hdata
    cases hdata
    rw [readTag_id htag]

theorem Sound.tells (h : t.Sound) (hrow : t.tags.get? g.id = some (tagRow g rs)) :
    Tells g rs t ⟨g, reported g.id rs⟩ ⟨g, requirementsOf g.id (tagRow g rs)⟩ where
  listed := h.filter_allTags hrow
  tag := rfl
  same := rfl
  given := List.mergeSort_perm _ _
  ordered := pairwise_mergeSort_key TagSkill.skillId _
  asked _ := mem_requirementsOf_tagRow
  last _ := mem_requirementsOf_tagRow.trans lastOf_reported.symm
  rising := ascending_requirementsOf _ _

/-- What is returned is what is listed, unless a skill is repeated. -/
theorem Tells.eq_iff {data entry : TagData} (h : Tells g rs t data entry) :
    data = entry ↔ (rs.map (·.skillId)).Nodup := by
  have hskills : (data.skills.map (·.skillId)).Perm (rs.map (·.skillId)) := by
    have hgiven := h.given.map TagSkill.skillId
    rwa [List.map_map] at hgiven
  rw [← hskills.nodup_iff]
  constructor
  · rintro rfl
    exact List.pairwise_map.2 (h.rising.imp Int.ne_of_lt)
  · intro hnodup
    -- Both lists rise strictly then, and so it is enough that they have the same members.
    have hstrict : data.skills.Pairwise fun k l => k.skillId < l.skillId :=
      (h.ordered.and (List.pairwise_map.1 hnodup)).imp fun ⟨hle, hne⟩ => by omega
    have hdistinct {l : List TagSkill} (hl : l.Pairwise fun k l => k.skillId < l.skillId) : l.Nodup :=
      hl.imp fun hlt he => Int.ne_of_lt hlt (congrArg TagSkill.skillId he)
    have hperm : data.skills.Perm entry.skills := by
      rw [List.perm_ext_iff_of_nodup (hdistinct hstrict) (hdistinct h.rising)]
      exact fun k => ((h.last k).trans (lastOf_of_nodup hnodup)).symm
    have heq : data.skills = entry.skills :=
      hperm.eq_of_pairwise (fun k l _ _ hkl hlk => absurd hlk (Int.lt_asymm hkl)) hstrict h.rising
    cases data
    cases entry
    cases h.tag.trans h.same.symm
    cases heq
    rfl

end Store

namespace Database

open Store (Demands Tells Droppable)

variable {d : Database}

theorem Reachable.no_next_tag (h : d.Reachable) :
    d.store.tags.contains (d.store.lastTag + 1) = false :=
  h.numbered.store.tags.contains_next

theorem Reachable.makeTag_saves (h : d.Reachable) (name : String) (color : Color)
    (rs : List SkillRequirement) :
    ∃ data entry t, Database.atomically (Store.makeTag name color rs) d = (.ok data, { d with store := t }) ∧
      t.lastTag = d.store.lastTag + 1 ∧ Demands ⟨d.store.lastTag + 1, name, color⟩ rs d.store t ∧
      Tells ⟨d.store.lastTag + 1, name, color⟩ rs t data entry := by
  have hrun := atomically_eq (Store.makeTag name color rs) h.sound.idle h.sound.whole
  rw [Store.makeTag_eq] at hrun
  have hsound : Store.Sound _ := (Store.Operation.makeTag name color rs).keeps_sound _ h.sound.store
  rw [Store.makeTag_eq] at hsound
  have hrow (tags : Table Int TagRow) (row : TagRow) (i : Int) : (tags.insert i row).get? i = some row := by
    rw [Table.get?_insert, if_pos rfl]
  refine ⟨_, _, _, hrun, rfl, Store.demands_of_row (hrow _ _ _) (fun i hi => ?_) rfl,
    Store.Sound.tells hsound (hrow _ _ _)⟩
  rw [Table.get?_insert, if_neg hi]

theorem Reachable.remakeTag_saves (h : d.Reachable) {g : Tag} {rs : List SkillRequirement}
    (hthere : d.store.tags.contains g.id = true)
    (hfew : Droppable (d.store.requirementTable g.id) (rs.map (·.skillId))) :
    ∃ data entry t, Database.atomically (Store.remakeTag g rs) d = (.ok (some data), { d with store := t }) ∧
      t.lastTag = d.store.lastTag ∧ Demands g rs d.store t ∧ Tells g rs t data entry := by
  obtain ⟨old, hold⟩ := Option.isSome_iff_exists.1 hthere
  have hsound := (Store.Operation.remakeTag g rs).keeps_sound _ h.sound.store
  have hrun := atomically_eq (Store.remakeTag g rs) h.sound.idle h.sound.whole
  rw [Store.remakeTag_eq hthere hfew] at hsound hrun
  have hrow : (d.store.withTag g.id fun _ => Store.tagRow g rs).tags.get? g.id =
      some (Store.tagRow g rs) := by
    rw [Store.withTag, Table.get?_adjust, if_pos rfl, hold, Option.map_some]
  refine ⟨_, _, _, hrun, rfl, Store.demands_of_row hrow (fun i hi => ?_) rfl,
    Store.Sound.tells hsound hrow⟩
  rw [Store.withTag, Table.get?_adjust, if_neg hi]

theorem Reachable.remakeTag_refused (h : d.Reachable) {g : Tag} {rs : List SkillRequirement}
    (hthere : d.store.tags.contains g.id = true)
    (hmany : ¬Droppable (d.store.requirementTable g.id) (rs.map (·.skillId))) :
    Database.atomically (Store.remakeTag g rs) d =
      (.error (overflow Store.tagSkillsStatement (d.store.requirementTable g.id) (rs.map (·.skillId))), d) :=
  atomically_refused h.sound.idle h.sound.whole (Store.remakeTag_refused hthere hmany)

/-- Whatever a tag asked for before, once it is saved it asks for each skill of the list that was given, on
the level that comes last for it, and for nothing else. All other rows are as they were. A save that would
drop more requirements than one statement can name is refused and leaves everything as it was, and a tag
that is not there is not saved. -/
theorem requirements_are_replaced (h : d.Reachable) (rs : List SkillRequirement) :
    (∀ name color, ∃ data t,
      Database.atomically (Store.makeTag name color rs) d = (.ok data, { d with store := t }) ∧
      data.tag = ⟨d.store.lastTag + 1, name, color⟩ ∧
      d.store.tags.contains (d.store.lastTag + 1) = false ∧ t.lastTag = d.store.lastTag + 1 ∧
      Demands ⟨d.store.lastTag + 1, name, color⟩ rs d.store t) ∧
    (∀ g : Tag, d.store.tags.contains g.id = true →
      if Droppable (d.store.requirementTable g.id) (rs.map (·.skillId)) then ∃ data t,
        Database.atomically (Store.remakeTag g rs) d = (.ok (some data), { d with store := t }) ∧
        data.tag = g ∧ t.lastTag = d.store.lastTag ∧ Demands g rs d.store t
      else Database.atomically (Store.remakeTag g rs) d =
        (.error (overflow Store.tagSkillsStatement (d.store.requirementTable g.id)
          (rs.map (·.skillId))), d)) ∧
    ∀ g : Tag, d.store.tags.contains g.id = false →
      Database.atomically (Store.remakeTag g rs) d = (.ok none, d) := by
  refine ⟨fun name color => ?_, fun g hthere => ?_, fun g hnone => ?_⟩
  · obtain ⟨data, entry, t, hmake, hlast, hdemands, htells⟩ := h.makeTag_saves name color rs
    exact ⟨data, t, hmake, htells.tag, h.no_next_tag, hlast, hdemands⟩
  · split
    · obtain ⟨data, entry, t, hsave, hlast, hdemands, htells⟩ := h.remakeTag_saves hthere ‹_›
      exact ⟨data, t, hsave, htells.tag, hlast, hdemands⟩
    · exact h.remakeTag_refused hthere ‹_›
  · rw [atomically_eq _ h.sound.idle h.sound.whole, Store.remakeTag_of_none hnone]

def fitted : Database :=
  let guns : Store.Action TagData := Store.makeTag "Guns" (.rgb 255 0 0) [⟨3300, 4⟩, ⟨3302, 2⟩]
  let hull : Store.Action TagData := Store.makeTag "Hull" (.rgb 0 0 255) [⟨3300, 1⟩]
  (Database.atomically hull (Database.atomically guns fresh).2).2

theorem reachable_fitted : fitted.Reachable :=
  .atomically (.atomically .fresh (.makeTag ..)) (.makeTag ..)

theorem guns_are_asked_anew :
    ∃ data t, Database.atomically (Store.remakeTag ⟨1, "Rails", .rgb 0 255 0⟩
        [⟨3302, 1⟩, ⟨3301, 2⟩, ⟨3302, 5⟩]) fitted = (.ok (some data), { fitted with store := t }) ∧
      t.tag? 1 = .ok (some ⟨1, "Rails", .rgb 0 255 0⟩) ∧
      ⟨1, 3302, 5⟩ ∈ t.allTagSkills ∧ ⟨1, 3302, 1⟩ ∉ t.allTagSkills ∧
      ⟨1, 3300, 4⟩ ∉ t.allTagSkills ∧ ⟨2, 3300, 1⟩ ∈ t.allTagSkills := by
  obtain ⟨-, hsaved, -⟩ :=
    requirements_are_replaced reachable_fitted [⟨3302, 1⟩, ⟨3301, 2⟩, ⟨3302, 5⟩]
  obtain ⟨data, t, hsave, -, -, hdemands⟩ := hsaved ⟨1, "Rails", .rgb 0 255 0⟩ (by decide +kernel)
  have hlast := ((hdemands.requirements ⟨1, 3302, 5⟩).2 (by decide)).1
  have hearlier : ⟨1, 3302, 1⟩ ∉ t.allTagSkills := fun hk =>
    absurd ((hdemands.requirements ⟨1, 3302, 1⟩).1 ⟨hk, rfl⟩) (by decide)
  have hstale : ⟨1, 3300, 4⟩ ∉ t.allTagSkills := fun hk =>
    absurd ((hdemands.requirements ⟨1, 3300, 4⟩).1 ⟨hk, rfl⟩) (by decide)
  have hother := (hdemands.elsewhere ⟨2, 3300, 1⟩ (by decide)).2 (by decide +kernel)
  exact ⟨data, t, hsave, hdemands.read, hlast, hearlier, hstale, hother⟩

/-- What is returned of a tag that was saved has all requirements that were given, in the order of skills;
what is listed of it then has the last one for each skill only. The two are the same just when no skill was
given twice. -/
theorem tag_is_listed_without_its_repeats (h : d.Reachable) (rs : List SkillRequirement) :
    (∀ name color, ∃ data entry t,
      Database.atomically (Store.makeTag name color rs) d = (.ok data, { d with store := t }) ∧
      Tells ⟨d.store.lastTag + 1, name, color⟩ rs t data entry ∧
      (data = entry ↔ (rs.map (·.skillId)).Nodup)) ∧
    ∀ g : Tag, d.store.tags.contains g.id = true →
      if Droppable (d.store.requirementTable g.id) (rs.map (·.skillId)) then ∃ data entry t,
        Database.atomically (Store.remakeTag g rs) d = (.ok (some data), { d with store := t }) ∧
        Tells g rs t data entry ∧ (data = entry ↔ (rs.map (·.skillId)).Nodup)
      else Database.atomically (Store.remakeTag g rs) d =
        (.error (overflow Store.tagSkillsStatement (d.store.requirementTable g.id)
          (rs.map (·.skillId))), d) := by
  refine ⟨fun name color => ?_, fun g hthere => ?_⟩
  · obtain ⟨data, entry, t, hmake, -, -, htells⟩ := h.makeTag_saves name color rs
    exact ⟨data, entry, t, hmake, htells, htells.eq_iff⟩
  · split
    · obtain ⟨data, entry, t, hsave, -, -, htells⟩ := h.remakeTag_saves hthere ‹_›
      exact ⟨data, entry, t, hsave, htells, htells.eq_iff⟩
    · exact h.remakeTag_refused hthere ‹_›

theorem guns_are_told_with_repeats :
    (∃ data entry t, Database.atomically (Store.remakeTag ⟨1, "Guns", .rgb 255 0 0⟩
        [⟨3302, 1⟩, ⟨3301, 2⟩, ⟨3302, 5⟩]) fitted = (.ok (some data), { fitted with store := t }) ∧
      ⟨1, 3302, 1⟩ ∈ data.skills ∧ ⟨1, 3302, 1⟩ ∉ entry.skills ∧ data ≠ entry) ∧
    ∃ data t, Database.atomically (Store.makeTag "Drones" (.rgb 255 0 0) [⟨3302, 5⟩, ⟨3301, 2⟩])
        fitted = (.ok data, { fitted with store := t }) ∧ ∃ ts, t.allTags = .ok ts ∧ data ∈ ts := by
  obtain ⟨-, hsaved⟩ :=
    tag_is_listed_without_its_repeats reachable_fitted [⟨3302, 1⟩, ⟨3301, 2⟩, ⟨3302, 5⟩]
  obtain ⟨data, entry, t, hsave, htells, hrepeats⟩ :=
    hsaved ⟨1, "Guns", .rgb 255 0 0⟩ (by decide +kernel)
  obtain ⟨hmade, -⟩ := tag_is_listed_without_its_repeats reachable_fitted [⟨3302, 5⟩, ⟨3301, 2⟩]
  obtain ⟨drones, listed, u, hmake, hlists, hsame⟩ := hmade "Drones" (.rgb 255 0 0)
  have htold : ⟨1, 3302, 1⟩ ∈ data.skills := htells.given.mem_iff.2 (by decide)
  have hne : data ≠ entry := fun heq => absurd (hrepeats.1 heq) (by decide)
  have hgone : ⟨1, 3302, 1⟩ ∉ entry.skills := fun hk => absurd ((htells.asked _).1 hk) (by decide)
  obtain ⟨ts, hts, hone⟩ := hlists.listed
  have hmem : listed ∈ ts := List.mem_of_mem_filter (hone ▸ List.mem_singleton_self listed)
  exact ⟨⟨data, entry, t, hsave, htold, hgone, hne⟩, drones, u, hmake, ts, hts,
    hsame.2 (by decide) ▸ hmem⟩

/-- A skill that is given twice is returned twice, and listed once. -/
theorem repeated_skill_is_told_twice :
    ∃ data t ts, Database.atomically (Store.makeTag "Guns" (.rgb 255 0 0) [⟨3300, 1⟩, ⟨3300, 5⟩])
        fresh = (.ok data, { fresh with store := t }) ∧
      data.skills.Perm [⟨1, 3300, 1⟩, ⟨1, 3300, 5⟩] ∧ t.allTags = .ok ts ∧ data ∉ ts := by
  obtain ⟨data, entry, t, hmake, -, -, htells⟩ :=
    Reachable.fresh.makeTag_saves "Guns" (.rgb 255 0 0) [⟨3300, 1⟩, ⟨3300, 5⟩]
  obtain ⟨ts, hts, hone⟩ := htells.listed
  refine ⟨data, t, ts, hmake, htells.given, hts, fun hdata => ?_⟩
  have hlisted : data ∈ ts.filter fun e => e.tag.id = (1 : Int) :=
    List.mem_filter.2 ⟨hdata, by rw [htells.tag]; rfl⟩
  have heq : data = entry := List.mem_singleton.1 (hone ▸ hlisted)
  exact absurd (htells.eq_iff.1 heq) (by decide)

end Database

end Muster
