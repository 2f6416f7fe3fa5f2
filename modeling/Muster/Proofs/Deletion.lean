import Muster.Proofs.Integrity
import Muster.Proofs.RoleReading
import Muster.Proofs.Selection

/-! What is deleted goes with all that belongs to it and with nothing else; a delete that fails on the
settings has happened all the same. -/

namespace Muster

variable {ω α : Type}

namespace Store

def RoleRow.bare (row : RoleRow) : RoleRow := { row with links := .empty }

/-- A tag is gone with its requirements and with the links to it. The settings are left open. -/
structure LacksTag (id : Int) (s t : Store) : Prop where
  tags : ∀ i, t.tags.get? i = if i = id then none else s.tags.get? i
  requirements : t.allTagSkills = s.allTagSkills.filter fun k => k.tagId ≠ id
  roles : ∀ i, (t.roles.get? i).map RoleRow.bare = (s.roles.get? i).map RoleRow.bare
  links : t.allRoleTags = s.allRoleTags.filter fun l => l.tagId ≠ id
  rest : t = { s with tags := t.tags, roles := t.roles, settings := t.settings }

structure LacksRole (id : Int) (s t : Store) : Prop where
  roles : ∀ i, t.roles.get? i = if i = id then none else s.roles.get? i
  links : t.allRoleTags = s.allRoleTags.filter fun l => l.roleId ≠ id
  rest : t = { s with roles := t.roles, settings := t.settings }

structure LacksCharacter (id : Int) (s t : Store) : Prop where
  characters : ∀ i, t.characters.get? i = if i = id then none else s.characters.get? i
  skills : t.allSkills = s.allSkills.filter fun k => k.characterId ≠ id
  tokens : t.allTokens = s.allTokens.filter fun e => e.1 ≠ id
  rest : t = { s with characters := t.characters }

/-- Some settings are stored in place of others; what else there is beside the settings stays, and all
stays if they are the same. -/
structure Resettles (v w : Settings) (s t : Store) : Prop where
  before : s.settings? = .ok v
  after : t.settings? = .ok w
  others : ∀ key, key ≠ settingsKey → t.settings.get? key = s.settings.get? key
  same : w = v → t.settings = s.settings

variable {s t : Store} {v w : Settings} {id : Int}

theorem ordered_erase (row : RoleRow) (id : Int) :
    RoleRow.ordered { row with links := row.links.erase id } =
      (RoleRow.ordered row).filter fun e => e.1 ≠ id := by
  rw [RoleRow.ordered, RoleRow.ordered, ← mergeSort_filter_key Prod.snd, Table.toList_erase]

theorem allRoleTags_withoutTag (s : Store) (id : Int) :
    (s.withoutTag id).allRoleTags = s.allRoleTags.filter fun l => l.tagId ≠ id := by
  rw [allRoleTags, allRoleTags, withoutTag, Table.toList_map, List.flatMap_map, List.filter_flatMap]
  refine List.flatMap_congr fun e _ => ?_
  obtain ⟨i, row⟩ := e
  dsimp only
  rw [ordered_erase, List.filter_map]
  rfl

theorem lacksTag_withoutTag (id : Int) (s : Store) : LacksTag id s (s.withoutTag id) where
  tags := Table.get?_erase s.tags id
  requirements := by
    refine s.tags.flatMap_toList_erase _ _ (fun e k hk => ?_) id
    obtain ⟨p, -, rfl⟩ := List.mem_map.1 hk
    rfl
  roles i := by
    rw [withoutTag, Table.get?_map, Option.map_map]
    rfl
  links := allRoleTags_withoutTag s id
  rest := rfl

theorem lacksRole_withoutRole (id : Int) (s : Store) : LacksRole id s (s.withoutRole id) where
  roles := Table.get?_erase s.roles id
  links := by
    refine s.roles.flatMap_toList_erase _ _ (fun e l hl => ?_) id
    obtain ⟨p, -, rfl⟩ := List.mem_map.1 hl
    rfl
  rest := rfl

def withoutCharacter (s : Store) (id : Int) : Store := { s with characters := s.characters.erase id }

theorem dropCharacter_eq (id : Int) (s : Store) :
    dropCharacter id s = (.ok (s.characters.contains id), s.withoutCharacter id) := rfl

theorem lacksCharacter_withoutCharacter (id : Int) (s : Store) :
    LacksCharacter id s (s.withoutCharacter id) where
  characters := Table.get?_erase s.characters id
  skills := by
    refine s.characters.flatMap_toList_erase _ _ (fun e k hk => ?_) id
    obtain ⟨p, -, rfl⟩ := List.mem_map.1 hk
    rfl
  tokens := by
    rw [allTokens, allTokens, List.filterMap_eq_flatMap_toList, List.filterMap_eq_flatMap_toList]
    refine s.characters.flatMap_toList_erase _ _ (fun e t ht => ?_) id
    obtain ⟨token, -, rfl⟩ := Option.map_eq_some_iff.1 (Option.mem_toList.1 ht)
    rfl
  rest := rfl

theorem withoutTag_eq_self_iff :
    s.withoutTag id = s ↔ s.tags.contains id = false ∧ ∀ l ∈ s.allRoleTags, l.tagId ≠ id := by
  constructor
  · intro h
    have hlinks := allRoleTags_withoutTag s id
    rw [h] at hlinks
    exact ⟨Table.erase_eq_self_iff.1 (congrArg Store.tags h),
      fun l hl => of_decide_eq_true (List.filter_eq_self.1 hlinks.symm l hl)⟩
  · intro ⟨htags, hlinks⟩
    have hroles : (s.roles.map fun _ row => { row with links := row.links.erase id }) = s.roles := by
      refine Table.ext_get? fun i => ?_
      rw [Table.get?_map]
      cases hrow : s.roles.get? i with
      | none => rfl
      | some row =>
        have hnone : row.links.contains id = false := by
          refine Option.isSome_eq_false_iff.2 (Option.isNone_iff_eq_none.2 ?_)
          refine Option.eq_none_iff_forall_not_mem.2 fun p hp => ?_
          exact hlinks ⟨i, id, p⟩ (mem_allRoleTags.2 ⟨row, hrow, hp⟩) rfl
        rw [Option.map_some, Table.erase_eq_self_iff.2 hnone]
    rw [withoutTag, Table.erase_eq_self_iff.2 htags, hroles]

theorem withoutRole_eq_self_iff : s.withoutRole id = s ↔ s.roles.contains id = false := by
  rw [← Table.erase_eq_self_iff]
  exact ⟨congrArg Store.roles, fun h => by rw [withoutRole, h]⟩

theorem LacksTag.withSettings (h : LacksTag id s t) (w : Settings) : LacksTag id s (t.withSettings w) :=
  { h with rest := congrArg (Store.withSettings · w) h.rest }

theorem LacksRole.withSettings (h : LacksRole id s t) (w : Settings) : LacksRole id s (t.withSettings w) :=
  { h with rest := congrArg (Store.withSettings · w) h.rest }

theorem filter_ne_eq_self_iff {ids : List Int} : ids.contains id = false ↔ ids.filter (· != id) = ids := by
  have hmem : ids.contains id = false ↔ id ∉ ids := by simp
  rw [hmem, List.filter_eq_self]
  exact ⟨fun h i hi => bne_iff_ne.2 fun he => h (he ▸ hi), fun h hid => bne_iff_ne.1 (h id hid) rfl⟩

theorem contains_tagIds_iff : v.tagIds.contains id = false ↔ v.withoutTag id = v := by
  rw [filter_ne_eq_self_iff]
  exact ⟨fun h => by rw [Settings.withoutTag, h], congrArg Settings.tagIds⟩

theorem contains_roleIds_iff : v.roleIds.contains id = false ↔ v.withoutRole id = v := by
  rw [filter_ne_eq_self_iff]
  exact ⟨fun h => by rw [Settings.withoutRole, h], congrArg Settings.roleIds⟩

theorem resettles (hv : s.settings? = .ok v) (hw : w.Fits) (ht : t.settings = s.settings) {again : Bool}
    (hagain : again = false ↔ w = v) :
    Resettles v w s (if again then t.withSettings w else t) := by
  cases again with
  | false =>
    cases hagain.1 rfl
    have hsame : t.settings? = .ok v := by rwa [settings?, ht]
    exact ⟨hv, hsame, fun _ _ => by rw [if_neg Bool.false_ne_true, ht], fun _ => ht⟩
  | true =>
    refine ⟨hv, settings?_withSettings t hw, fun key hkey => ?_, fun hsame => ?_⟩
    · rw [if_pos rfl, withSettings, Table.get?_insert, if_neg hkey, ht]
    · cases hagain.2 hsame

theorem dropSelectedTag_ok (hv : s.settings? = .ok v) (id : Int) :
    ∃ t, App.dropSelectedTag id s = (.ok (s.tags.contains id), t) ∧ LacksTag id s t ∧
      Resettles v (v.withoutTag id) s t := by
  have hlacks := lacksTag_withoutTag id s
  have hfits := (Settings.fits_of_settings? hv).withoutTag id
  have hsettled := resettles (t := s.withoutTag id) hv hfits rfl contains_tagIds_iff
  refine ⟨_, by rw [dropSelectedTag_eq, hv], ?_, hsettled⟩
  split
  · exact hlacks.withSettings _
  · exact hlacks

theorem dropSelectedRole_ok (hv : s.settings? = .ok v) (id : Int) :
    ∃ t, App.dropSelectedRole id s = (.ok (s.roles.contains id), t) ∧ LacksRole id s t ∧
      Resettles v (v.withoutRole id) s t := by
  have hlacks := lacksRole_withoutRole id s
  have hfits := (Settings.fits_of_settings? hv).withoutRole id
  have hsettled := resettles (t := s.withoutRole id) hv hfits rfl contains_roleIds_iff
  refine ⟨_, by rw [dropSelectedRole_eq, hv], ?_, hsettled⟩
  split
  · exact hlacks.withSettings _
  · exact hlacks

end Store

def Session.withStore (s : Session ω) (t : Store) : Session ω :=
  { s with database := { s.database with store := t } }

theorem Session.withStore_eq_self_iff {s : Session ω} {t : Store} :
    s.withStore t = s ↔ t = s.database.store :=
  ⟨fun h => congrArg (·.database.store) h, fun h => by rw [h]; rfl⟩

namespace Command

/-- An action on the store, outside of transactions: what it did stays done when it fails. -/
theorem inside_run (message : String) (a : Store.Action α) (s : Session ω) :
    inside message (Database.run a) s =
      if s.database.poisoned then
        (.error (.failed ((PublicError.new message).withHidden StoreError.poisoned.chain)), s)
      else
        match a s.database.store with
        | (.ok v, t) => (.ok v, s.withStore t)
        | (.error e, t) =>
          (.error (.failed ((PublicError.new message).withHidden e.chain)), s.withStore t) := by
  cases hp : s.database.poisoned with
  | true => rw [inside, Database.locked_of_poisoned hp, if_pos rfl]
  | false =>
    rw [inside, Database.locked_of_unlocked hp, if_neg Bool.false_ne_true, Database.run]
    rcases a s.database.store with ⟨_ | _, t⟩ <;> rfl

end Command

namespace App

open Store (LacksTag LacksRole)

/-- A delete fails on the settings, after all but the settings has lost what was to be deleted. -/
structure FailsLate (message : String) (lacks : Store → Store → Prop) (s : Session ω)
    (e : Halt PublicError) (t : Session ω) : Prop where
  unlocked : s.database.poisoned = false
  unread : ∃ why, s.database.store.settings? = .error why ∧
    e = .failed ((PublicError.new message).withHidden why.chain)
  lacks : lacks s.database.store t.database.store
  settings : t.database.store.settings = s.database.store.settings
  rest : t = s.withStore t.database.store

theorem delete_fails_late {s : Session ω} {u : Store} {a : Store.Action Bool}
    {lacks : Store → Store → Prop} (message : String)
    (hok : ∀ v, s.database.store.settings? = .ok v → ∃ b t, a s.database.store = (.ok b, t))
    (herror : ∀ e, s.database.store.settings? = .error e → a s.database.store = (.error e, u))
    (hlacks : lacks s.database.store u) (hsettings : u.settings = s.database.store.settings) :
    ((∃ e t, Command.inside message (Database.run a) s = (.error e, t)) ↔
      s.database.poisoned = true ∨ ∃ why, s.database.store.settings? = .error why) ∧
    ∀ e t, Command.inside message (Database.run a) s = (.error e, t) →
      s.database.poisoned = true ∧ t = s ∨
        FailsLate message lacks s e t ∧ (t = s ↔ u = s.database.store) := by
  rw [Command.inside_run]
  cases hp : s.database.poisoned with
  | true =>
    rw [if_pos rfl]
    exact ⟨⟨fun _ => .inl rfl, fun _ => ⟨_, _, rfl⟩⟩, fun e t h => .inl ⟨rfl, (Prod.mk.inj h).2.symm⟩⟩
  | false =>
    rw [if_neg Bool.false_ne_true]
    cases hv : s.database.store.settings? with
    | ok v =>
      obtain ⟨b, t, ha⟩ := hok v hv
      rw [ha]
      refine ⟨⟨fun ⟨e, t, h⟩ => ?_, fun h => ?_⟩, fun e t h => ?_⟩
      · cases (Prod.mk.inj h).1
      · obtain h | ⟨why, h⟩ := h <;> cases h
      · cases (Prod.mk.inj h).1
    | error why =>
      -- Outside of transactions nothing takes back what came before the settings.
      rw [herror why hv]
      refine ⟨⟨fun _ => .inr ⟨why, rfl⟩, fun _ => ⟨_, _, rfl⟩⟩, fun e t h => .inr ?_⟩
      cases h
      exact ⟨⟨hp, ⟨why, hv, rfl⟩, hlacks, hsettings, rfl⟩, Session.withStore_eq_self_iff⟩

/-- A delete fails just when the database cannot be locked, and then nothing has changed, or when the
settings cannot be read. Then what was to be deleted is gone, and so nothing has changed only if it was
not there. -/
theorem failed_delete_has_deleted (s : Session ω) (id : Int) :
    (((∃ e t, deleteTag id s = (.error e, t)) ↔
        s.database.poisoned = true ∨ ∃ why, s.database.store.settings? = .error why) ∧
      ∀ e t, deleteTag id s = (.error e, t) → s.database.poisoned = true ∧ t = s ∨
        FailsLate "Could not delete tag" (LacksTag id) s e t ∧
          (t = s ↔ s.database.store.tags.contains id = false ∧
            ∀ l ∈ s.database.store.allRoleTags, l.tagId ≠ id)) ∧
    ((∃ e t, deleteRole id s = (.error e, t)) ↔
        s.database.poisoned = true ∨ ∃ why, s.database.store.settings? = .error why) ∧
      ∀ e t, deleteRole id s = (.error e, t) → s.database.poisoned = true ∧ t = s ∨
        FailsLate "Could not delete role" (LacksRole id) s e t ∧
          (t = s ↔ s.database.store.roles.contains id = false) := by
  rw [← Store.withoutTag_eq_self_iff, ← Store.withoutRole_eq_self_iff]
  have hlacksTag := Store.lacksTag_withoutTag id s.database.store
  have hlacksRole := Store.lacksRole_withoutRole id s.database.store
  refine ⟨delete_fails_late _ (fun v hv => ?_) (fun e he => ?_) hlacksTag rfl,
    delete_fails_late _ (fun v hv => ?_) (fun e he => ?_) hlacksRole rfl⟩
  · obtain ⟨t, hdrop, -, -⟩ := Store.dropSelectedTag_ok hv id
    exact ⟨_, t, hdrop⟩
  · rw [Store.dropSelectedTag_eq, he]
  · obtain ⟨t, hdrop, -, -⟩ := Store.dropSelectedRole_ok hv id
    exact ⟨_, t, hdrop⟩
  · rw [Store.dropSelectedRole_eq, he]

def garbled : Session Unit where
  portal := ⟨.empty, none, ()⟩
  level := .info
  database := { Database.fresh with
    store := { Store.empty with
      settings := Table.empty.insert Store.settingsKey "nope"
      tags := Table.empty.insert 1 ⟨"Guns", "#ff0000ff", .empty⟩
      roles := Table.empty.insert 1 ⟨"Gunner", "", "all", "#ff0000ff", Table.empty.insert 1 0⟩
      lastTag := 1
      lastRole := 1 } }

theorem garbled_settings : garbled.database.store.settings? = .error (.encoding "not the settings") := by
  have hread : Settings.read? "nope" = none := by decide +kernel
  have hget : garbled.database.store.settings.get? Store.settingsKey = some "nope" := by decide +kernel
  rw [Store.settings?, hget]
  dsimp only
  rw [hread]

theorem garbled_delete_has_deleted :
    ∃ e t, deleteTag 1 garbled = (.error e, t) ∧
      FailsLate "Could not delete tag" (LacksTag 1) garbled e t ∧ t ≠ garbled := by
  obtain ⟨⟨hfails, hlate⟩, -⟩ := failed_delete_has_deleted garbled 1
  obtain ⟨e, t, hdelete⟩ := hfails.2 (.inr ⟨_, garbled_settings⟩)
  obtain ⟨hpoisoned, -⟩ | ⟨h, hsame⟩ := hlate e t hdelete
  · cases hpoisoned
  · have hthere : garbled.database.store.tags.contains 1 = true := by decide +kernel
    refine ⟨e, t, hdelete, h, fun heq => ?_⟩
    rw [(hsame.1 heq).1] at hthere
    cases hthere

/-- The tag is gone and the role has lost its link, but an error is what comes back. -/
theorem unread_settings_lose_the_tag :
    ∃ e t, deleteTag 1 garbled = (.error e, t) ∧
      garbled.database.store.tags.contains 1 = true ∧ t.database.store.tags.contains 1 = false ∧
      ⟨1, 1, 0⟩ ∈ garbled.database.store.allRoleTags ∧ ⟨1, 1, 0⟩ ∉ t.database.store.allRoleTags := by
  have hdrop : dropSelectedTag 1 garbled.database.store =
      (.error (.encoding "not the settings"), garbled.database.store.withoutTag 1) := by
    rw [Store.dropSelectedTag_eq, garbled_settings]
  have hdelete : deleteTag 1 garbled =
      (.error (.failed ((PublicError.new "Could not delete tag").withHidden
        (StoreError.encoding "not the settings").chain)),
        garbled.withStore (garbled.database.store.withoutTag 1)) := by
    rw [deleteTag, Command.inside_run, hdrop]
    rfl
  have hrole : garbled.database.store.roles.get? 1 =
      some ⟨"Gunner", "", "all", "#ff0000ff", Table.empty.insert 1 0⟩ := by
    decide +kernel
  have hlink := Store.mem_allRoleTags (l := ⟨1, 1, 0⟩).2 ⟨_, hrole, by decide +kernel⟩
  refine ⟨_, _, hdelete, by decide +kernel, by decide +kernel, hlink, ?_⟩
  rw [Session.withStore, Store.allRoleTags_withoutTag]
  simp

end App

end Muster
