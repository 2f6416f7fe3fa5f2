import Muster.Proofs.Labels
import Muster.Proofs.RoleWriting
import Muster.Proofs.TagMeaning

/-! Ids are given once, in ascending order, and the stored selection is one of tags and roles that are
there, after any requests and syncs. -/

namespace Muster

variable {ω α : Type}

namespace Store

structure Covers (s : Store) (v : Settings) : Prop where
  tags : ∀ t ∈ v.tagIds, s.tags.contains t = true
  roles : ∀ r ∈ v.roleIds, s.roles.contains r = true

/-- Ids given in ascending order, none beyond the last ones: all that is there has one of them, and all
that is selected is there. -/
structure Filed (ts rs : List Int) (s : Store) : Prop where
  tagsRise : ts.Pairwise (· < ·)
  rolesRise : rs.Pairwise (· < ·)
  lastTag : ∀ t ∈ ts, t ≤ s.lastTag
  lastRole : ∀ r ∈ rs, r ≤ s.lastRole
  tags : ∀ t, s.tags.contains t = true → t ∈ ts
  roles : ∀ r, s.roles.contains r = true → r ∈ rs
  selected : ∀ v, s.settings? = .ok v → s.Covers v

variable {s t : Store} {ts rs : List Int} {id : Int} {v : Settings}

theorem filed_empty : Filed [] [] empty where
  tagsRise := .nil
  rolesRise := .nil
  lastTag := nofun
  lastRole := nofun
  tags _ ht := by cases ht
  roles _ hr := by cases hr
  selected v hv := by
    cases hv
    exact ⟨nofun, nofun⟩

theorem rise_concat {is : List Int} {last : Int} (h : is.Pairwise (· < ·))
    (hlast : ∀ i ∈ is, i ≤ last) : (is ++ [last + 1]).Pairwise (· < ·) := by
  refine List.pairwise_append.2 ⟨h, List.pairwise_singleton _ _, fun i hi next hnext => ?_⟩
  rw [List.mem_singleton.1 hnext]
  exact Int.lt_add_one_of_le (hlast i hi)

theorem le_of_mem_concat {is : List Int} {last : Int} (hlast : ∀ i ∈ is, i ≤ last) :
    ∀ i ∈ is ++ [last + 1], i ≤ last + 1 := fun i hi => by
  obtain hi | hi := List.mem_append.1 hi
  · exact Int.le_trans (hlast i hi) (Int.le_add_one (Int.le_refl _))
  · exact Int.le_of_eq (List.mem_singleton.1 hi)

def withSettings (s : Store) (v : Settings) : Store :=
  { s with settings := s.settings.insert settingsKey v.write }

theorem settings?_withSettings (s : Store) (hv : v.Fits) : (s.withSettings v).settings? = .ok v := by
  simp [withSettings, settings?, Settings.read?_write hv]

namespace Filed

/-- Only the keys of tags and roles matter, not what is under them. -/
theorem of_keys (h : s.Filed ts rs) (htags : ∀ i, t.tags.contains i = s.tags.contains i)
    (hroles : ∀ i, t.roles.contains i = s.roles.contains i) (hsettings : t.settings = s.settings)
    (hlastTag : t.lastTag = s.lastTag) (hlastRole : t.lastRole = s.lastRole) : t.Filed ts rs :=
  { h with
    lastTag := hlastTag ▸ h.lastTag
    lastRole := hlastRole ▸ h.lastRole
    tags := fun i hi => h.tags i (htags i ▸ hi)
    roles := fun i hi => h.roles i (hroles i ▸ hi)
    selected := fun v hv => by
      rw [settings?, hsettings] at hv
      obtain ⟨hcoversTags, hcoversRoles⟩ := h.selected v hv
      exact ⟨fun i hi => (htags i).trans (hcoversTags i hi),
        fun i hi => (hroles i).trans (hcoversRoles i hi)⟩ }

theorem withSettings (h : s.Filed ts rs) (hv : v.Fits) (hc : s.Covers v) :
    Filed ts rs (s.withSettings v) :=
  { h with
    selected := fun w hw => by
      cases (settings?_withSettings s hv).symm.trans hw
      exact ⟨hc.tags, hc.roles⟩ }

theorem withoutTag (h : s.Filed ts rs) (hid : ∀ v, s.settings? = .ok v → id ∉ v.tagIds) :
    Filed ts rs (s.withoutTag id) :=
  { h with
    tags := fun i hi => by
      rw [Store.withoutTag, Table.contains_erase, Bool.and_eq_true] at hi
      exact h.tags i hi.2
    roles := fun i hi => h.roles i (by rwa [Store.withoutTag, Table.contains_map] at hi)
    selected := fun v hv => by
      obtain ⟨hcoversTags, hcoversRoles⟩ := h.selected v hv
      refine ⟨fun i hi => ?_, fun i hi => ?_⟩
      · have hne : i ≠ id := fun he => hid v hv (he ▸ hi)
        simp [Store.withoutTag, Table.contains_erase, hne, hcoversTags i hi]
      · simp [Store.withoutTag, hcoversRoles i hi] }

theorem withoutRole (h : s.Filed ts rs) (hid : ∀ v, s.settings? = .ok v → id ∉ v.roleIds) :
    Filed ts rs (s.withoutRole id) :=
  { h with
    roles := fun i hi => by
      rw [Store.withoutRole, Table.contains_erase, Bool.and_eq_true] at hi
      exact h.roles i hi.2
    selected := fun v hv => by
      obtain ⟨hcoversTags, hcoversRoles⟩ := h.selected v hv
      refine ⟨hcoversTags, fun i hi => ?_⟩
      have hne : i ≠ id := fun he => hid v hv (he ▸ hi)
      simp [Store.withoutRole, Table.contains_erase, hne, hcoversRoles i hi] }

theorem makeTag (h : s.Filed ts rs) (row : TagRow) :
    Filed (ts ++ [s.lastTag + 1]) rs
      { s with lastTag := s.lastTag + 1, tags := s.tags.insert (s.lastTag + 1) row } where
  tagsRise := rise_concat h.tagsRise h.lastTag
  rolesRise := h.rolesRise
  lastTag := le_of_mem_concat h.lastTag
  lastRole := h.lastRole
  tags t ht := by
    rw [Table.contains_insert, Bool.or_eq_true, decide_eq_true_iff] at ht
    obtain rfl | ht := ht
    · simp
    · exact List.mem_append_left _ (h.tags t ht)
  roles := h.roles
  selected v hv := by
    obtain ⟨hcoversTags, hcoversRoles⟩ := h.selected v hv
    exact ⟨fun i hi => by simp [hcoversTags i hi], hcoversRoles⟩

theorem makeRole (h : s.Filed ts rs) (row : RoleRow) :
    Filed ts (rs ++ [s.lastRole + 1])
      { s with lastRole := s.lastRole + 1, roles := s.roles.insert (s.lastRole + 1) row } where
  tagsRise := h.tagsRise
  rolesRise := rise_concat h.rolesRise h.lastRole
  lastTag := h.lastTag
  lastRole := le_of_mem_concat h.lastRole
  tags := h.tags
  roles r hr := by
    rw [Table.contains_insert, Bool.or_eq_true, decide_eq_true_iff] at hr
    obtain rfl | hr := hr
    · simp
    · exact List.mem_append_left _ (h.roles r hr)
  selected v hv := by
    obtain ⟨hcoversTags, hcoversRoles⟩ := h.selected v hv
    exact ⟨hcoversTags, fun i hi => by simp [hcoversRoles i hi]⟩

end Filed

theorem ofLabels_filed (ts rs : List Int) : OfLabels (Filed ts rs) := fun s t hst h => by
  obtain ⟨htags, hroles, hsettings, hlastTag, hlastRole⟩ := eq_of_labels hst.symm
  exact h.of_keys (fun i => congrArg (·.contains i) htags) (fun i => congrArg (·.contains i) hroles)
    hsettings hlastTag hlastRole

/-! What requests do -/

theorem resettle_apply (again : Settings → Bool) (f : Settings → Settings) (a : α) (s : Store) :
    (do
      let v ← look settings?
      if again v then putSettings (f v)
      return a : Action α) s =
      match s.settings? with
      | .ok v => (.ok a, if again v then s.withSettings (f v) else s)
      | .error e => (.error e, s) := by
  cases hv : s.settings? with
  | error e =>
    have hlook : look settings? s = (.error e, s) := by rw [look_apply, hv]
    rw [bind_of_error hlook]
  | ok v =>
    have hlook : look settings? s = (.ok v, s) := by rw [look_apply, hv]
    rw [bind_of_ok hlook]
    dsimp only
    cases again v <;> rfl

theorem dropSelectedTag_eq (id : Int) (s : Store) :
    App.dropSelectedTag id s =
      match s.settings? with
      | .ok v => (.ok (s.tags.contains id), if v.tagIds.contains id
          then (s.withoutTag id).withSettings (v.withoutTag id) else s.withoutTag id)
      | .error e => (.error e, s.withoutTag id) := by
  rw [App.dropSelectedTag, bind_of_ok (dropTag_eq id s)]
  exact resettle_apply (fun v => v.tagIds.contains id) (fun v => v.withoutTag id) _ _

theorem dropSelectedRole_eq (id : Int) (s : Store) :
    App.dropSelectedRole id s =
      match s.settings? with
      | .ok v => (.ok (s.roles.contains id), if v.roleIds.contains id
          then (s.withoutRole id).withSettings (v.withoutRole id) else s.withoutRole id)
      | .error e => (.error e, s.withoutRole id) := by
  rw [App.dropSelectedRole, bind_of_ok (dropRole_eq id s)]
  exact resettle_apply (fun v => v.roleIds.contains id) (fun v => v.withoutRole id) _ _

/-- It comes to the same to take a tag out of the selection first and to drop it then. -/
theorem keeps_dropSelectedTag (ts rs : List Int) (id : Int) :
    Keeps (fun s => s.Sound ∧ s.Filed ts rs) (App.dropSelectedTag id) := by
  intro s ⟨hs, hf⟩
  refine ⟨(Operation.dropSelectedTag id).keeps_sound s hs, ?_⟩
  obtain ⟨v, hv⟩ := hs.settings_ok
  rw [dropSelectedTag_eq, hv]
  dsimp only
  split
  · have hfits := (Settings.fits_of_settings? hv).withoutTag id
    obtain ⟨hcoversTags, hcoversRoles⟩ := hf.selected v hv
    have hfirst := hf.withSettings hfits
      ⟨fun i hi => hcoversTags i (List.mem_filter.1 hi).1, hcoversRoles⟩
    exact hfirst.withoutTag fun w hw => by
      cases (settings?_withSettings s hfits).symm.trans hw
      simp [Settings.withoutTag]
  · rename_i hselected
    exact hf.withoutTag fun w hw => by
      cases hv.symm.trans hw
      simpa using hselected

theorem keeps_dropSelectedRole (ts rs : List Int) (id : Int) :
    Keeps (fun s => s.Sound ∧ s.Filed ts rs) (App.dropSelectedRole id) := by
  intro s ⟨hs, hf⟩
  refine ⟨(Operation.dropSelectedRole id).keeps_sound s hs, ?_⟩
  obtain ⟨v, hv⟩ := hs.settings_ok
  rw [dropSelectedRole_eq, hv]
  dsimp only
  split
  · have hfits := (Settings.fits_of_settings? hv).withoutRole id
    obtain ⟨hcoversTags, hcoversRoles⟩ := hf.selected v hv
    have hfirst := hf.withSettings hfits
      ⟨hcoversTags, fun i hi => hcoversRoles i (List.mem_filter.1 hi).1⟩
    exact hfirst.withoutRole fun w hw => by
      cases (settings?_withSettings s hfits).symm.trans hw
      simp [Settings.withoutRole]
  · rename_i hselected
    exact hf.withoutRole fun w hw => by
      cases hv.symm.trans hw
      simpa using hselected

theorem keeps_storeLevel (ts rs : List Int) (l : Level) :
    Keeps (fun s => s.Sound ∧ s.Filed ts rs) (App.storeLevel l) := by
  intro s ⟨hs, hf⟩
  refine ⟨(Operation.storeLevel l).keeps_sound s hs, ?_⟩
  obtain ⟨v, hv⟩ := hs.settings_ok
  have hlook : look settings? s = (.ok v, s) := by rw [look_apply, hv]
  have hfits : ({ v with logLevel := l.name } : Settings).Fits :=
    (Settings.fits_of_settings? hv).of_subset (List.Subset.refl _) (List.Subset.refl _)
  obtain ⟨hcoversTags, hcoversRoles⟩ := hf.selected v hv
  rw [App.storeLevel, bind_of_ok hlook]
  exact hf.withSettings hfits ⟨hcoversTags, hcoversRoles⟩

theorem filed_remakeTag {g : Tag} {asked : List SkillRequirement} {data : Option TagData}
    (h : remakeTag g asked s = (.ok data, t)) (hf : s.Filed ts rs) : t.Filed ts rs := by
  obtain ⟨-, -, rfl⟩ | ⟨-, -, rfl⟩ := remakeTag_eq_ok h
  · exact hf
  · exact hf.of_keys (fun i => Table.contains_adjust _ s.tags g.id i) (fun _ => rfl) rfl rfl rfl

theorem filed_remakeRole {r : Role} {tags : List Int} {data : Option RoleData}
    (h : remakeRole r tags s = (.ok data, t)) (hf : s.Filed ts rs) : t.Filed ts rs := by
  obtain ⟨-, -, rfl⟩ | ⟨-, -, -, rfl⟩ := remakeRole_eq_ok h
  · exact hf
  · exact hf.of_keys (fun _ => rfl) (fun i => Table.contains_adjust _ s.roles r.id i) rfl rfl rfl

end Store

namespace Database

def Filed (ts rs : List Int) (d : Database) : Prop := d.Kept fun s => s.Sound ∧ s.Filed ts rs

theorem filed_fresh : Filed [] [] fresh := ⟨rfl, rfl, rfl, Store.sound_empty, Store.filed_empty⟩

theorem syncInvariant_filed (ts rs : List Int) : SyncInvariant (Filed ts rs) :=
  syncInvariant_of_labels (Store.ofLabels_filed ts rs)

end Database

namespace App

open Database (Filed)

variable {ts rs : List Int} {s : Session ω}

namespace Request

/-- Settings can be saved that select what is there. -/
def Admissible (store : Store) : Request → Prop
  | .saveSettings v => v.Fits ∧ store.Covers v
  | _ => True

def tagsMade : (q : Request) → Except (Halt PublicError) q.Answer → List Int
  | .createTag _ _ _, .ok (data : TagData) => [data.tag.id]
  | _, _ => []

def rolesMade : (q : Request) → Except (Halt PublicError) q.Answer → List Int
  | .createRole _ _ _ _ _, .ok (data : RoleData) => [data.role.id]
  | _, _ => []

end Request

theorem filed_createTag (a : App ω) (name : String) (color : Option Color) (text : String) :
    Brings (fun s : Session ω => Filed ts rs s.database)
      (fun r s => Filed (ts ++ Request.tagsMade (.createTag name color text) r) rs s.database)
      (a.createTag name color text) := by
  have hP := Database.syncInvariant_filed ts rs
  have herror (e : Halt PublicError) (s : Store) (hs : s.Sound ∧ s.Filed ts rs) :
      s.Sound ∧ s.Filed (ts ++ Request.tagsMade (.createTag name color text) (.error e)) rs := by
    simpa [Request.tagsMade] using hs
  have hfails (e : Halt PublicError) (s : Session ω) (hs : Filed ts rs s.database) := hs.imp (herror e)
  refine (Command.keeps_required _ _).brings_bind hfails fun name =>
    (keeps_resolveSkills hP a text).brings_bind hfails fun asked =>
    brings_chooseColor a color fun color _ => brings_inside herror fun s data t hs hmake => ?_
  have hsound := (Store.Operation.makeTag name color asked).keeps_sound.of_run hmake hs.1
  rw [Store.makeTag_eq] at hmake
  cases hmake
  exact ⟨hsound, hs.2.makeTag _⟩

theorem filed_createRole (a : App ω) (name label : String) (operator : Operator) (color : Option Color)
    (tags : List Int) :
    Brings (fun s : Session ω => Filed ts rs s.database)
      (fun r s =>
        Filed ts (rs ++ Request.rolesMade (.createRole name label operator color tags) r) s.database)
      (a.createRole name label operator color tags) := by
  have herror (e : Halt PublicError) (s : Store) (hs : s.Sound ∧ s.Filed ts rs) : s.Sound ∧
      s.Filed ts (rs ++ Request.rolesMade (.createRole name label operator color tags) (.error e)) := by
    simpa [Request.rolesMade] using hs
  have hfails (e : Halt PublicError) (s : Session ω) (hs : Filed ts rs s.database) := hs.imp (herror e)
  refine (Command.keeps_required _ _).brings_bind hfails fun name =>
    brings_chooseColor a color fun chosen _ => brings_inside herror fun s data t hs hmake => ?_
  have hmade : Request.rolesMade (.createRole _ label operator color tags) (.ok data) = [data.role.id] := rfl
  have hsound := (Store.Operation.makeRole _ tags).keeps_sound.of_run hmake hs.1
  obtain ⟨hdata, -, rfl⟩ := Store.makeRole_eq_ok hmake
  rw [hmade, hdata]
  exact ⟨hsound, hs.2.makeRole _⟩

theorem filed_saveSettings (hs : Filed ts rs s.database) {v : Settings} (hv : v.Fits)
    (hc : s.database.store.Covers v) : Filed ts rs (saveSettings v s).2.database := by
  have hstore : Command.inside "Could not save settings"
      (Database.run (Store.putSettings v.normalize)) s = (.ok (), { s with
        database := (Database.run (Store.putSettings v.normalize) s.database).2 }) := by
    rw [Command.inside, hs.locked_eq]
    rfl
  have hcovers : s.database.store.Covers v.normalize :=
    ⟨fun i hi => hc.tags i (List.mem_eraseDups.1 hi), fun i hi => hc.roles i (List.mem_eraseDups.1 hi)⟩
  rw [saveSettings, bind_of_ok hstore]
  exact hs.of_store ⟨Store.keeps_putSettings hv.normalize _ hs.store.1,
    hs.store.2.withSettings hv.normalize hcovers⟩

/-- Whatever comes of a request, what it has made is filed under the next ids. -/
theorem filed_serve (a : App ω) (hs : Filed ts rs s.database) (q : Request)
    (hq : q.Admissible s.database.store) :
    Filed (ts ++ q.tagsMade (a.serve q s).1) (rs ++ q.rolesMade (a.serve q s).1)
      (a.serve q s).2.database := by
  have hP := Database.syncInvariant_filed ts rs
  have made (q : Request) (hspares : q.Spares (Filed ts rs))
      (htags : q.tagsMade (a.serve q s).1 = []) (hroles : q.rolesMade (a.serve q s).1 = []) :
      Filed (ts ++ q.tagsMade (a.serve q s).1) (rs ++ q.rolesMade (a.serve q s).1)
        (a.serve q s).2.database := by
    rw [htags, hroles, List.append_nil, List.append_nil]
    exact keeps_serve hP a q hspares s hs
  cases q with
  | createTag name color text =>
    have h := filed_createTag a name color text s hs
    rw [serve]
    simpa [Request.rolesMade] using h
  | createRole name label operator color tags =>
    have h := filed_createRole a name label operator color tags s hs
    rw [serve]
    simpa [Request.tagsMade] using h
  | saveSettings v =>
    have h : Filed ts rs (a.serve (.saveSettings v) s).2.database := filed_saveSettings hs hq.1 hq.2
    simpa [Request.tagsMade, Request.rolesMade] using h
  | deleteCharacter id =>
    have hkeeps := Keeps.and (Store.Operation.dropCharacter id).keeps_sound
      ((Store.leavesLabels_dropCharacter id).keeps (Store.ofLabels_filed ts rs))
    exact made _ (Database.keeps_run hkeeps) rfl rfl
  | updateTag g text =>
    exact made _ (fun asked => Database.keeps_atomically fun _ _ _ ⟨hs, hf⟩ hr =>
      ⟨(Store.Operation.remakeTag g asked).keeps_sound.of_run hr hs, Store.filed_remakeTag hr hf⟩) rfl rfl
  | deleteTag id => exact made _ (Database.keeps_run (Store.keeps_dropSelectedTag ts rs id)) rfl rfl
  | updateRole r tags =>
    exact made _ (fun r' _ => Database.keeps_atomically fun _ _ _ hs hr =>
      ⟨(Store.Operation.remakeRole r' tags).keeps_sound.of_run hr hs.1,
        Store.filed_remakeRole hr hs.2⟩) rfl rfl
  | deleteRole id => exact made _ (Database.keeps_run (Store.keeps_dropSelectedRole ts rs id)) rfl rfl
  | chooseLevel raw => exact made _ (Database.keeps_run (Store.keeps_storeLevel ts rs _)) rfl rfl
  | listCharacters | addCharacter | refreshCharacter | refreshAll | listTags | resolveSkills
  | skillNames | listRoles | characterMatches | overview | settings => exact made _ trivial rfl rfl

end App

/-- What requests and syncs make of a fresh database, with the ids of the tags and of the roles that
were made, in order. -/
inductive Database.History : List Int → List Int → Database → Prop
  | fresh : History [] [] .fresh
  | request {ω : Type} {ts rs : List Int} {a : App ω} {s : Session ω} (q : App.Request)
    (h : History ts rs s.database) (hq : q.Admissible s.database.store) :
    History (ts ++ q.tagsMade (a.serve q s).1) (rs ++ q.rolesMade (a.serve q s).1)
      (a.serve q s).2.database
  | sync {ω α : Type} {ts rs : List Int} {y : Syncer ω} {w : Sync ω α} {c : Scene ω}
    (h : History ts rs c.database) (hw : y.Offers w) : History ts rs (w c).2.database

theorem Database.History.filed {ts rs : List Int} {d : Database} (h : History ts rs d) :
    Filed ts rs d := by
  induction h with
  | fresh => exact filed_fresh
  | request q _ hq ih => exact App.filed_serve _ ih q hq
  | sync _ hw ih => exact Syncer.Offers.keeps (syncInvariant_filed _ _) _ hw _ ih

/-- No id is given twice, so that an id never comes to mean another tag or role, and the stored
selection is one of tags and roles that are there. -/
theorem Database.History.ids_rise_and_selection_is_there {ts rs : List Int} {d : Database}
    (h : History ts rs d) :
    ts.Pairwise (· < ·) ∧ rs.Pairwise (· < ·) ∧
    (∀ t, d.store.tags.contains t = true → t ∈ ts) ∧
    (∀ r, d.store.roles.contains r = true → r ∈ rs) ∧
    ∃ v, d.store.settings? = .ok v ∧ (∀ t ∈ v.tagIds, d.store.tags.contains t = true) ∧
      ∀ r ∈ v.roleIds, d.store.roles.contains r = true := by
  obtain ⟨hsound, hfiled⟩ := h.filed.store
  obtain ⟨v, hv⟩ := hsound.settings_ok
  obtain ⟨htags, hroles⟩ := hfiled.selected v hv
  exact ⟨hfiled.tagsRise, hfiled.rolesRise, hfiled.tags, hfiled.roles, v, hv, htags, hroles⟩

theorem Database.History.next {ts rs ts' rs' : List Int} {qs : List App.Request}
    (h : History ts rs (App.offlineAfter qs).database) (q : App.Request)
    (hq : q.Admissible (App.offlineAfter qs).database.store)
    (htags : ts ++ q.tagsMade (App.offline.serve q (App.offlineAfter qs)).1 = ts')
    (hroles : rs ++ q.rolesMade (App.offline.serve q (App.offlineAfter qs)).1 = rs') :
    History ts' rs' (App.offlineAfter (qs ++ [q])).database := by
  rw [App.offlineAfter, List.foldl_append, ← htags, ← hroles]
  exact .request q h hq

/-- A tag is made and selected, and deleted; a role with its name is refused a link to it, and a new tag
of the same name gets another id. -/
theorem Database.deleted_tag_is_forgotten :
    ∃ d, History [1, 2] [1] d ∧ d.store.tags.contains 1 = false ∧
      ∃ v, d.store.settings? = .ok v ∧ 1 ∉ v.tagIds := by
  let guns : App.Request := .createTag "Guns" (some (.rgb 255 0 0)) ""
  let choose : App.Request := .saveSettings ⟨"info", [1], []⟩
  let role (tags : List Int) : App.Request := .createRole "Gunner" "" .all (some (.rgb 0 0 0)) tags
  have hchoose : choose.Admissible (App.offlineAfter [guns]).database.store :=
    ⟨by simp [Settings.Fits, Text.fits64], ⟨by decide +kernel, nofun⟩⟩
  have h₀ : History [] [] (App.offlineAfter []).database := .fresh
  have h₁ : History [1] [] (App.offlineAfter [guns]).database :=
    h₀.next guns trivial (by decide +kernel) (by decide +kernel)
  have h₂ : History [1] [] (App.offlineAfter [guns, choose]).database :=
    h₁.next choose hchoose (by decide +kernel) (by decide +kernel)
  have h₃ : History [1] [] (App.offlineAfter [guns, choose, .deleteTag 1]).database :=
    h₂.next (.deleteTag 1) trivial (by decide +kernel) (by decide +kernel)
  have h₄ : History [1] [] (App.offlineAfter [guns, choose, .deleteTag 1, role [1]]).database :=
    h₃.next (role [1]) trivial (by decide +kernel) (by decide +kernel)
  have h₅ : History [1] [1]
      (App.offlineAfter [guns, choose, .deleteTag 1, role [1], role []]).database :=
    h₄.next (role []) trivial (by decide +kernel) (by decide +kernel)
  have h₆ : History [1, 2] [1]
      (App.offlineAfter [guns, choose, .deleteTag 1, role [1], role [], guns]).database :=
    h₅.next guns trivial (by decide +kernel) (by decide +kernel)
  obtain ⟨-, -, -, -, v, hv, htags, -⟩ := h₆.ids_rise_and_selection_is_there
  have hgone : (App.offlineAfter [guns, choose, .deleteTag 1, role [1], role [],
      guns]).database.store.tags.contains 1 = false := by decide +kernel
  exact ⟨_, h₆, hgone, v, hv, fun h => Bool.false_ne_true (hgone.symm.trans (htags 1 h))⟩

end Muster
