import Muster.Proofs.Labels
import Muster.Proofs.RoleReading

/-! A role that was written keeps its fields, and of its tags those that are still there, in the order
in which they were written, whatever is done to tags, to other roles and to all else. -/

namespace Muster

variable {α β : Type}

theorem Table.All.contains_next {t : Table Int β} {last : Int} (h : t.All fun id _ => id ≤ last) :
    t.contains (last + 1) = false := by
  cases hrow : t.get? (last + 1) with
  | none => rw [contains, hrow, Option.isSome_none]
  | some row =>
    have hle := h _ row hrow
    omega

namespace Store

/-- No number is beyond the last one given. -/
structure Numbered (s : Store) : Prop where
  tags : s.tags.All fun id _ => id ≤ s.lastTag
  roles : s.roles.All fun id _ => id ≤ s.lastRole

theorem numbered_empty : Numbered empty := ⟨nofun, nofun⟩

theorem ofLabels_numbered : OfLabels Numbered := fun s t hst h => by
  obtain ⟨htags, hroles, -, hlastTag, hlastRole⟩ := eq_of_labels hst
  exact ⟨htags ▸ hlastTag ▸ h.tags, hroles ▸ hlastRole ▸ h.roles⟩

theorem Operation.keeps_numbered {a : Action α} (h : Operation a) : Keeps Numbered a := by
  induction h with
  | done a => exact .pure a
  | refuse e => exact .throw e
  | next _ _ iha ihf => exact .bind iha ihf
  | read => exact .get
  | putAlliance a => exact (leavesLabels_putAlliance a).keeps ofLabels_numbered
  | putCorporation c => exact (leavesLabels_putCorporation c).keeps ofLabels_numbered
  | putCharacter now c => exact (leavesLabels_putCharacter now c).keeps ofLabels_numbered
  | putSkill k => exact (leavesLabels_putSkill k).keeps ofLabels_numbered
  | dropSkills id skills => exact (leavesLabels_dropSkills id skills).keeps ofLabels_numbered
  | dropCharacter id => exact (leavesLabels_dropCharacter id).keeps ofLabels_numbered
  | putToken t => exact (leavesLabels_putToken t).keeps ofLabels_numbered
  | putSkillNames names => exact (leavesLabels_putSkillNames names).keeps ofLabels_numbered
  | addTag name color =>
    intro s h
    have hnext : s.lastTag ≤ s.lastTag + 1 := Int.le_add_one (Int.le_refl _)
    have hold := h.tags.imp fun _ _ hid => Int.le_trans hid hnext
    exact ⟨hold.insert (Int.le_refl _), h.roles⟩
  | updateTag t => exact fun s h => ⟨h.tags.adjust t.id fun _ hid => hid, h.roles⟩
  | dropTag id => exact fun s h => ⟨h.tags.erase id, h.roles.map fun _ _ hid => hid⟩
  | putTagSkill k =>
    exact keeps_guarded fun _ h _ => ⟨h.tags.adjust k.tagId fun _ hid => hid, h.roles⟩
  | dropTagSkills id skills =>
    exact keeps_dropKeys fun s h => ⟨h.tags.adjust id fun _ hid => hid, h.roles⟩
  | addRole r =>
    intro s h
    have hnext : s.lastRole ≤ s.lastRole + 1 := Int.le_add_one (Int.le_refl _)
    have hold := h.roles.imp fun _ _ hid => Int.le_trans hid hnext
    rw [addRole_eq]
    exact ⟨h.tags, hold.insert (Int.le_refl _)⟩
  | updateRole r => exact fun s h => ⟨h.tags, h.roles.adjust r.id fun _ hid => hid⟩
  | dropRole id => exact fun s h => ⟨h.tags, h.roles.erase id⟩
  | putRoleTag l =>
    exact keeps_guarded fun _ h _ => ⟨h.tags, h.roles.adjust l.roleId fun _ hid => hid⟩
  | dropRoleTags id tags =>
    exact keeps_dropKeys fun s h => ⟨h.tags, h.roles.adjust id fun _ hid => hid⟩
  | putSettings hv => exact .modify fun _ h => ⟨h.tags, h.roles⟩

def linked (s : Store) (tags : List Int) : Table Int Int :=
  (placed tags).filter fun tag _ => s.tags.contains tag

/-- A role is kept with its fields and with links, to those of a list of tags that are there. All of the
list had numbers when the role was written, and so no tag to come is one of them. -/
structure Lists (r : Role) (tags : List Int) (s : Store) : Prop where
  row : s.roles.get? r.id = some { roleRow r.toNewRole tags with links := s.linked tags }
  tags : ∀ tag ∈ tags, tag ≤ s.lastTag
  role : r.id ≤ s.lastRole

variable {s t : Store} {r : Role} {tags : List Int} {id : Int}

theorem mem_of_placed {tag q : Int} (h : (placed tags).get? tag = some q) : tag ∈ tags :=
  (exists_mem_lastPlacesFrom 0).1 ⟨q, get?_ofList_placesFrom.1 h⟩

theorem readRole_roleRow (r : Role) (tags : List Int) (links : Table Int Int) :
    readRole r.id { roleRow r.toNewRole tags with links } = .ok r := by
  have hop : readOperator r.operator.name = .ok r.operator := by
    rw [readOperator, Operator.ofName?_name]
  rw [readRole, roleRow, hop, readColor_toHex]
  rfl

theorem linked_congr (h : ∀ tag ∈ tags, t.tags.contains tag = s.tags.contains tag) :
    t.linked tags = s.linked tags := by
  refine Table.ext_get? fun tag => ?_
  rw [linked, linked, Table.get?_filter, Table.get?_filter]
  cases hplace : (placed tags).get? tag with
  | none => rfl
  | some q => rw [Option.filter_some, Option.filter_some, h tag (mem_of_placed hplace)]

theorem linked_withoutTag (s : Store) (id : Int) (tags : List Int) :
    (s.withoutTag id).linked tags = (s.linked tags).erase id := by
  refine Table.ext_get? fun tag => ?_
  rw [linked, withoutTag, linked, Table.get?_filter, Table.get?_erase, Table.get?_filter]
  by_cases htag : tag = id <;> simp [Table.contains_erase, htag]

theorem linked_of_all (h : ∀ tag ∈ tags, s.tags.contains tag = true) :
    s.linked tags = placed tags := by
  refine Table.ext_get? fun tag => ?_
  rw [linked, Table.get?_filter]
  cases hplace : (placed tags).get? tag with
  | none => rfl
  | some q => rw [Option.filter_some, h tag (mem_of_placed hplace), if_pos rfl]

namespace Lists

theorem of_row (h : s.Lists r tags) (hrow : t.roles.get? r.id = s.roles.get? r.id)
    (htags : ∀ tag ∈ tags, t.tags.contains tag = s.tags.contains tag)
    (hlastTag : s.lastTag ≤ t.lastTag) (hlastRole : s.lastRole ≤ t.lastRole) : t.Lists r tags where
  row := by rw [hrow, h.row, linked_congr htags]
  tags tag htag := Int.le_trans (h.tags tag htag) hlastTag
  role := Int.le_trans h.role hlastRole

theorem withTag (h : s.Lists r tags) (id : Int) (f : TagRow → TagRow) :
    Lists r tags (s.withTag id f) :=
  h.of_row rfl (fun tag _ => Table.contains_adjust f s.tags id tag) (Int.le_refl _) (Int.le_refl _)

theorem withRole (h : s.Lists r tags) (hid : id ≠ r.id) (f : RoleRow → RoleRow) :
    Lists r tags (s.withRole id f) := by
  refine h.of_row ?_ (fun _ _ => rfl) (Int.le_refl _) (Int.le_refl _)
  rw [Store.withRole, Table.get?_adjust, if_neg hid.symm]

theorem withoutTag (h : s.Lists r tags) (id : Int) : Lists r tags (s.withoutTag id) where
  row := by
    rw [linked_withoutTag, Store.withoutTag, Table.get?_map, h.row]
    rfl
  tags := h.tags
  role := h.role

theorem nextTag (h : s.Lists r tags) (row : TagRow) :
    Lists r tags { s with lastTag := s.lastTag + 1, tags := s.tags.insert (s.lastTag + 1) row } := by
  refine h.of_row rfl (fun tag htag => ?_) (Int.le_add_one (Int.le_refl _)) (Int.le_refl _)
  have hne : tag ≠ s.lastTag + 1 := Int.ne_of_lt (Int.lt_add_one_of_le (h.tags tag htag))
  rw [Table.contains_insert, decide_eq_false hne, Bool.false_or]

theorem nextRole (h : s.Lists r tags) (row : RoleRow) :
    Lists r tags { s with lastRole := s.lastRole + 1, roles := s.roles.insert (s.lastRole + 1) row } := by
  refine h.of_row ?_ (fun _ _ => rfl) (Int.le_refl _) (Int.le_add_one (Int.le_refl _))
  rw [Table.get?_insert, if_neg (Int.ne_of_lt (Int.lt_add_one_of_le h.role))]

end Lists

theorem ofLabels_lists (r : Role) (tags : List Int) : OfLabels (Lists r tags) := fun s t hst h => by
  obtain ⟨htags, hroles, -, hlastTag, hlastRole⟩ := eq_of_labels hst
  exact h.of_row (congrArg (·.get? r.id) hroles.symm)
    (fun tag _ => congrArg (·.contains tag) htags.symm) (Int.le_of_eq hlastTag)
    (Int.le_of_eq hlastRole)

theorem Numbered.lists (hs : s.Numbered)
    (hrow : s.roles.get? r.id = some (roleRow r.toNewRole tags))
    (htags : ∀ tag ∈ tags, s.tags.contains tag = true) : s.Lists r tags where
  row := by
    rw [hrow, linked_of_all htags]
    rfl
  tags tag htag := by
    obtain ⟨row, hthere⟩ := Option.isSome_iff_exists.1 (htags tag htag)
    exact hs.tags tag row hthere
  role := hs.roles r.id _ hrow

theorem lists_makeRole {new : NewRole} {data : RoleData} (hs : s.Numbered)
    (h : makeRole new tags s = (.ok data, t)) :
    data.role.toNewRole = new ∧ t.Lists data.role tags := by
  have ht := (Operation.makeRole new tags).keeps_numbered.of_run h hs
  obtain ⟨hrole, htags, rfl⟩ := makeRole_eq_ok h
  rw [hrole]
  exact ⟨rfl, ht.lists ((Table.get?_insert ..).trans (if_pos rfl)) htags⟩

theorem lists_remakeRole {data : RoleData} (hs : s.Numbered)
    (h : remakeRole r tags s = (.ok (some data), t)) : t.Lists r tags := by
  have ht := (Operation.remakeRole r tags).keeps_numbered.of_run h hs
  obtain ⟨⟨⟩, -, -⟩ | ⟨-, hrole, htags, rfl⟩ := remakeRole_eq_ok h
  obtain ⟨old, hold⟩ := Option.isSome_iff_exists.1 hrole
  refine ht.lists ?_ htags
  rw [withRole, Table.get?_adjust, if_pos rfl, hold]
  rfl

/-- Reads and writes that neither save nor drop a role nor write its links. What is done to a role that
was just added is done to another one. -/
inductive SparesRole (id : Int) : {α : Type} → Action α → Prop
  | aside {α : Type} {a : Action α} : LeavesLabels a → SparesRole id a
  | next {α β : Type} {a : Action α} {f : α → Action β} :
    SparesRole id a → (∀ x, SparesRole id (f x)) → SparesRole id (a >>= f)
  | addTag (name : String) (color : Color) : SparesRole id (addTag name color)
  | updateTag (t : Tag) : SparesRole id (updateTag t)
  | dropTag (tag : Int) : SparesRole id (dropTag tag)
  | putTagSkill (k : TagSkill) : SparesRole id (putTagSkill k)
  | dropTagSkills (tag : Int) (skills : List Int) : SparesRole id (dropTagSkills tag skills)
  | addRole {α : Type} (new : NewRole) {f : Role → Action α} :
    (∀ r : Role, r.id ≠ id → SparesRole id (f r)) → SparesRole id (addRole new >>= f)
  | updateRole {r : Role} : r.id ≠ id → SparesRole id (updateRole r)
  | dropRole {other : Int} : other ≠ id → SparesRole id (dropRole other)
  | putRoleTag {l : RoleTag} : l.roleId ≠ id → SparesRole id (putRoleTag l)
  | dropRoleTags {other : Int} (tags : List Int) : other ≠ id → SparesRole id (dropRoleTags other tags)
  | putSettings (v : Settings) : SparesRole id (putSettings v)

namespace SparesRole

theorem done (a : α) : SparesRole id (pure a) := .aside fun _ => .pure a

theorem refuse (e : StoreError) : SparesRole id (throw e : Action α) := .aside fun _ => .throw e

theorem read : SparesRole id (get : Action Store) := .aside fun _ => .get

theorem look (f : Store → Except StoreError α) : SparesRole id (Store.look f) :=
  .aside fun l s hs => by
    rw [look_apply]
    exact hs

theorem ite {c : Prop} [Decidable c] {a b : Action α} (ha : SparesRole id a) (hb : SparesRole id b) :
    SparesRole id (if c then a else b) := by
  split
  · exact ha
  · exact hb

theorem forM {f : α → Action PUnit} (h : ∀ x, SparesRole id (f x)) (xs : List α) :
    SparesRole id (xs.forM f) := by
  induction xs with
  | nil => exact .done ()
  | cons x xs ih => exact .next (h x) fun _ => ih

theorem replaceTagSkills (tag : Int) (rs : List SkillRequirement) :
    SparesRole id (Store.replaceTagSkills tag rs) :=
  .next .read fun _ => .next (forM .putTagSkill _) fun _ => .next (.dropTagSkills ..) fun _ => .done _

theorem makeTag (name : String) (color : Color) (rs : List SkillRequirement) :
    SparesRole id (Store.makeTag name color rs) :=
  .next (.addTag ..) fun t => .next (replaceTagSkills t.id rs) fun _ => .done _

theorem remakeTag (t : Tag) (rs : List SkillRequirement) : SparesRole id (Store.remakeTag t rs) :=
  .next (.updateTag t) fun _ => ite (.next (replaceTagSkills t.id rs) fun _ => .done _) (.done none)

theorem linkFrom {other : Int} (hother : other ≠ id) (p : Int) (tags : List Int) :
    SparesRole id (Store.linkFrom other p tags) := by
  induction tags generalizing p with
  | nil => exact .done ()
  | cons tag tags ih =>
    have hrest := next (.putRoleTag (l := ⟨other, tag, p⟩) hother) fun _ => ih (p + 1)
    exact .next .read fun s => ite (.next (.refuse _) fun _ => hrest) hrest

theorem replaceRoleTags {other : Int} (hother : other ≠ id) (tags : List Int) :
    SparesRole id (Store.replaceRoleTags other tags) :=
  .next .read fun _ => .next (linkFrom hother 0 tags) fun _ =>
    .next (.dropRoleTags _ hother) fun _ => .done _

theorem loadRole (r : Role) : SparesRole id (Store.loadRole r) := .next (look _) fun _ => .done _

theorem makeRole (new : NewRole) (tags : List Int) : SparesRole id (Store.makeRole new tags) :=
  .addRole new fun r hr => .next (replaceRoleTags hr tags) fun _ => loadRole r

theorem remakeRole {r : Role} (hr : r.id ≠ id) (tags : List Int) :
    SparesRole id (Store.remakeRole r tags) :=
  .next (.updateRole hr) fun _ =>
    ite (.next (replaceRoleTags hr tags) fun _ => .next (loadRole r) fun _ => .done _) (.done none)

theorem dropSelectedTag (tag : Int) : SparesRole id (App.dropSelectedTag tag) :=
  .next (.dropTag tag) fun _ => .next (look _) fun _ =>
    ite (.next (.putSettings _) fun _ => .done _) (.done _)

theorem dropSelectedRole {other : Int} (hother : other ≠ id) :
    SparesRole id (App.dropSelectedRole other) :=
  .next (.dropRole hother) fun _ => .next (look _) fun _ =>
    ite (.next (.putSettings _) fun _ => .done _) (.done _)

theorem storeLevel (l : Level) : SparesRole id (App.storeLevel l) :=
  .next (look _) fun _ => .putSettings _

theorem keeps_lists {a : Action α} (h : SparesRole r.id a) : Keeps (Lists r tags) a := by
  generalize hid : r.id = id at h
  induction h with
  | aside ha => exact ha.keeps (ofLabels_lists r tags)
  | next _ _ iha ihf => exact .bind iha ihf
  | addTag name color => exact fun s h => h.nextTag _
  | updateTag t => exact fun s h => h.withTag t.id _
  | dropTag tag => exact fun s h => h.withoutTag tag
  | putTagSkill k => exact keeps_guarded fun _ h _ => h.withTag k.tagId _
  | dropTagSkills tag skills => exact keeps_dropKeys fun s h => h.withTag tag _
  | addRole new _ ih =>
    -- The number that the store gives is beyond that of the role, so what follows is about another one.
    intro s h
    rw [bind_of_ok (addRole_eq new s)]
    refine ih _ ?_ _ (h.nextRole _)
    exact hid ▸ (Int.ne_of_lt (Int.lt_add_one_of_le h.role)).symm
  | updateRole hr => exact fun s h => h.withRole (hid ▸ hr) _
  | dropRole hother =>
    intro s h
    refine h.of_row ?_ (fun _ _ => rfl) (Int.le_refl _) (Int.le_refl _)
    exact (Table.get?_erase ..).trans (if_neg (hid ▸ hother.symm))
  | putRoleTag hl => exact keeps_guarded fun _ h _ => h.withRole (hid ▸ hl) _
  | dropRoleTags tags hother => exact keeps_dropKeys fun s h => h.withRole (hid ▸ hother) _
  | putSettings v =>
    exact .modify fun _ h => h.of_row rfl (fun _ _ => rfl) (Int.le_refl _) (Int.le_refl _)

end SparesRole

end Store

namespace Database

variable {d d' : Database} {r : Role} {tags : List Int}

/-- No transaction is open, the store is sound, and a role is kept as it was written. -/
def Lists (r : Role) (tags : List Int) (d : Database) : Prop :=
  d.Kept fun s => s.Sound ∧ s.Lists r tags

theorem syncInvariant_lists (r : Role) (tags : List Int) : SyncInvariant (Lists r tags) :=
  syncInvariant_of_labels (Store.ofLabels_lists r tags)

theorem keeps_lists_run {a : Store.Action α} (ha : Store.Operation a) (hs : Store.SparesRole r.id a) :
    Keeps (Lists r tags) (run a) :=
  keeps_run (.and ha.keeps_sound hs.keeps_lists)

theorem keeps_lists_atomically {a : Store.Action α} (ha : Store.Operation a)
    (hs : Store.SparesRole r.id a) : Keeps (Lists r tags) (atomically a) :=
  keeps_atomically fun _ _ _ h hr => (Keeps.and ha.keeps_sound hs.keeps_lists).of_run hr h

end Database

/-- A request that neither saves nor deletes a role. Settings are saved with ids of 64 bits. -/
def App.Request.SparesRole (id : Int) : Request → Prop
  | .updateRole r _ => r.id ≠ id
  | .deleteRole other => other ≠ id
  | .saveSettings v => v.Fits
  | _ => True

theorem App.Request.SparesRole.spares {r : Role} {tags : List Int} {q : Request}
    (h : q.SparesRole r.id) : q.Spares (Database.Lists r tags) := by
  open Database Store in
  cases q with
  | deleteCharacter id =>
    exact keeps_lists_run (.dropCharacter id) (.aside (leavesLabels_dropCharacter id))
  | createTag => exact fun name color rs => keeps_lists_atomically (.makeTag ..) (.makeTag ..)
  | updateTag t => exact fun rs => keeps_lists_atomically (.remakeTag t rs) (.remakeTag t rs)
  | deleteTag id => exact keeps_lists_run (.dropSelectedTag id) (.dropSelectedTag id)
  | createRole => exact fun new => keeps_lists_atomically (.makeRole ..) (.makeRole ..)
  | updateRole other tags =>
    exact fun r' hr' => keeps_lists_atomically (.remakeRole r' tags) (.remakeRole (hr' ▸ h) tags)
  | deleteRole id => exact keeps_lists_run (.dropSelectedRole id) (.dropSelectedRole h)
  | saveSettings v => exact keeps_lists_run (.putSettings h.normalize) (.putSettings _)
  | chooseLevel raw => exact keeps_lists_run (.storeLevel _) (.storeLevel _)
  | listCharacters | addCharacter | refreshCharacter | refreshAll | listTags | resolveSkills
  | skillNames | listRoles | characterMatches | overview | settings => trivial

namespace Database

/-- What is made of a database by operations, syncs and requests that neither save nor delete a role nor
write its links. -/
inductive SparesRole (id : Int) (d : Database) : Database → Prop
  | refl : SparesRole id d d
  | run {α : Type} {a : Store.Action α} {d' : Database} :
    SparesRole id d d' → Store.Operation a → Store.SparesRole id a → SparesRole id d (run a d').2
  | atomically {α : Type} {a : Store.Action α} {d' : Database} :
    SparesRole id d d' → Store.Operation a → Store.SparesRole id a →
      SparesRole id d (atomically a d').2
  | sync {ω α : Type} {y : Syncer ω} {w : Sync ω α} {c : Scene ω} :
    SparesRole id d c.database → y.Offers w → SparesRole id d (w c).2.database
  | request {ω : Type} {a : App ω} {s : Session ω} {q : App.Request} :
    SparesRole id d s.database → q.SparesRole id → SparesRole id d (a.serve q s).2.database

inductive Writes (tags : List Int) : Role → Database → Database → Prop
  | make {new : NewRole} {data : RoleData} {d d' : Database} :
    atomically (Store.makeRole new tags) d = (.ok data, d') → Writes tags ⟨new, data.role.id⟩ d d'
  | save {r : Role} {data : RoleData} {d d' : Database} :
    atomically (Store.remakeRole r tags) d = (.ok (some data), d') → Writes tags r d d'
  | create {ω : Type} {a : App ω} {name label : String} {operator : Operator} {color : Option Color}
    {data : RoleData} {s s' : Session ω} :
    a.serve (.createRole name label operator color tags) s = (.ok data, s') →
      Writes tags ⟨⟨Text.trim name, Text.trim label, operator, color.getD data.role.color⟩,
        data.role.id⟩ s.database s'.database
  | update {ω : Type} {a : App ω} {r : Role} {data : RoleData} {s s' : Session ω} :
    a.serve (.updateRole r tags) s = (.ok data, s') →
      Writes tags { r with name := Text.trim r.name, label := Text.trim r.label } s.database s'.database

variable {d d' : Database} {r : Role} {tags : List Int}

theorem SparesRole.lists (h : SparesRole r.id d d') (hd : d.Lists r tags) : d'.Lists r tags := by
  induction h with
  | refl => exact hd
  | run _ ha hs ih => exact keeps_lists_run ha hs _ ih
  | atomically _ ha hs ih => exact keeps_lists_atomically ha hs _ ih
  | sync _ hw ih => exact Syncer.Offers.keeps (syncInvariant_lists r tags) _ hw _ ih
  | request _ hq ih => exact App.keeps_serve (syncInvariant_lists r tags) _ _ hq.spares _ ih

theorem SparesRole.requests {ω : Type} {a : App ω} {id : Int} {qs : List App.Request} {s : Session ω}
    (h : SparesRole id d s.database) (hqs : ∀ q ∈ qs, q.SparesRole id) :
    SparesRole id d (qs.foldl (fun s q => (a.serve q s).2) s).database := by
  induction qs generalizing s with
  | nil => exact h
  | cons q qs ih =>
    obtain ⟨hq, hqs⟩ := List.forall_mem_cons.1 hqs
    exact ih (.request h hq) hqs

theorem Reachable.numbered (h : Reachable d) : Kept Store.Numbered d :=
  h.induct (invariant_kept Store.Operation.keeps_numbered) ⟨rfl, rfl, rfl, Store.numbered_empty⟩

theorem Writes.reachable (h : Writes tags r d d') (hd : Reachable d) : Reachable d' := by
  cases h with
  | @make new data _ _ hmake =>
    have hd' := hd.atomically (.makeRole new tags)
    rwa [hmake] at hd'
  | save hsave =>
    have hd' := hd.atomically (.remakeRole r tags)
    rwa [hsave] at hd'
  | @create _ a name label operator color data _ _ hcreate =>
    have hd' := hd.command (.createRole (a := a) name label operator color tags)
    rw [App.serve] at hcreate
    rwa [hcreate] at hd'
  | @update _ a r _ _ _ hupdate =>
    have hd' := hd.command (.updateRole (a := a) r tags)
    rw [App.serve] at hupdate
    rwa [hupdate] at hd'

theorem Writes.store_lists (h : Writes tags r d d') (hd : Kept Store.Numbered d) :
    d'.store.Lists r tags := by
  cases h with
  | make hmake =>
    obtain ⟨rfl, hlists⟩ := Store.lists_makeRole hd.store (atomically_eq_ok hd hmake)
    exact hlists
  | save hsave => exact Store.lists_remakeRole hd.store (atomically_eq_ok hd hsave)
  | create hcreate =>
    obtain ⟨name, s₁, hname, hrest⟩ := bind_eq_ok.1 hcreate
    obtain ⟨color, s₂, hcolor, hmake⟩ := bind_eq_ok.1 hrest
    obtain ⟨rfl, rfl⟩ := App.required_eq_ok hname
    obtain ⟨hchosen, hsame⟩ := App.chooseColor_eq_ok hcolor
    rw [← hsame] at hd
    obtain ⟨hrole, hlists⟩ := Store.lists_makeRole hd.store (App.inside_eq_ok hd hmake)
    rw [hrole, hchosen]
    rwa [← hrole]
  | update hupdate =>
    obtain ⟨name, s₁, hname, hrest⟩ := bind_eq_ok.1 hupdate
    obtain ⟨found, s₂, hsave, hfound⟩ := bind_eq_ok.1 hrest
    obtain ⟨rfl, rfl⟩ := App.required_eq_ok hname
    obtain ⟨rfl, rfl⟩ := App.found_eq_ok hfound
    exact Store.lists_remakeRole hd.store (App.inside_eq_ok hd hsave)

/-- A role that was written is listed once and as it was written, with the tags that are still there, in
the order of the list that it was written with; of a repeated one the last place counts. -/
theorem Writes.role_keeps_its_order {d₀ d₁ d₂ : Database} (hw : Writes tags r d₀ d₁)
    (h₀ : Reachable d₀) (h : SparesRole r.id d₁ d₂) :
    ∃ rs e, d₂.store.allRoles = .ok rs ∧ rs.filter (fun data => data.role.id = r.id) = [e] ∧
      e.role = r ∧ e.tags.map (·.id) = tags.dedup.filter (fun t => d₂.store.tags.contains t) ∧
      ∀ t ∈ e.tags, d₂.store.tag? t.id = .ok (some t) := by
  have hsound₁ := (hw.reachable h₀).sound
  have h₁ : d₁.Lists r tags := { hsound₁ with store := ⟨hsound₁.store, hw.store_lists h₀.numbered⟩ }
  obtain ⟨hsound, hlists⟩ := (h.lists h₁).store
  obtain ⟨rs, e, hrs, hone, hread, htags, hcurrent⟩ := hsound.filter_allRoles hlists.row
  refine ⟨rs, e, hrs, hone, ?_, htags.trans (Store.map_ordered fun tag => ?_), hcurrent⟩
  · rw [Store.readRole_roleRow] at hread
    exact (Except.ok.inj hread).symm
  · rw [Store.linked, Table.get?_filter]

def tagged : Session Unit :=
  App.offlineAfter [.createTag "Cloak" (some (.rgb 255 0 0)) "",
    .createTag "Scan" (some (.rgb 255 0 0)) "", .createTag "Warp" (some (.rgb 255 0 0)) ""]

def scout : NewRole := ⟨"Scout", "S", .any, .rgb 0 0 255⟩

def scouted : Session Unit :=
  { tagged with
    database := { tagged.database with
      store := { tagged.database.store with
        lastRole := tagged.database.store.lastRole + 1
        roles := tagged.database.store.roles.insert (tagged.database.store.lastRole + 1)
          (Store.roleRow scout [1, 2, 1, 3]) } } }

def resupplied : Session Unit :=
  [.updateTag ⟨2, "Probes", .rgb 0 255 0⟩ "", .deleteTag 3, .createTag "Hull" none "",
    .createRole "Prober" "" .all none [4]].foldl (fun s q => (App.offline.serve q s).2) scouted

theorem reachable_tagged : tagged.database.Reachable :=
  .command (.command (.command .fresh (.createTag ..)) (.createTag ..)) (.createTag ..)

theorem writes_scouted : Writes [1, 2, 1, 3] ⟨scout, 1⟩ tagged.database scouted.database := by
  have htags : ∀ tag ∈ [1, 2, 1, 3], tagged.database.store.tags.contains tag = true := by
    decide +kernel
  have hsound := reachable_tagged.sound
  obtain ⟨data, hmake⟩ := hsound.store.makeRole_ok scout htags
  have hid : data.role.id = 1 := by
    rw [(Store.makeRole_eq_ok hmake).1]
    decide +kernel
  have hdone : atomically (Store.makeRole scout [1, 2, 1, 3]) tagged.database =
      (.ok data, scouted.database) := by
    rw [atomically_eq _ hsound.idle hsound.whole, hmake]
    rfl
  have hw := Writes.make hdone
  rwa [hid] at hw

theorem scout_keeps_its_order :
    ∃ rs e, resupplied.database.store.allRoles = .ok rs ∧
      rs.filter (fun data => data.role.id = 1) = [e] ∧ e.role = ⟨scout, 1⟩ ∧
      e.tags.map (·.id) = [2, 1] ∧
      ∀ t ∈ e.tags, resupplied.database.store.tag? t.id = .ok (some t) := by
  have h : SparesRole 1 scouted.database resupplied.database :=
    SparesRole.refl.requests (by simp [App.Request.SparesRole])
  have hids : [1, 2, 1, 3].dedup.filter (fun t => resupplied.database.store.tags.contains t) =
      [2, 1] := by
    decide +kernel
  obtain ⟨rs, e, hrs, hone, hrole, htags, hcurrent⟩ :=
    writes_scouted.role_keeps_its_order reachable_tagged h
  exact ⟨rs, e, hrs, hone, hrole, htags.trans hids, hcurrent⟩

end Database

end Muster
