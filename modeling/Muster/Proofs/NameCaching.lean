import Muster.Proofs.Labels
import Muster.Proofs.Renaming

/-! Names of skills are cached after a sync and apart from it: whatever ESI answers when it is asked for
them, the sync tells the same and stores the same. -/

namespace Muster

variable {ω : Type}

def Esi.itemNames (things : List NamedThing) : List (Int × String) :=
  (things.filter fun t => t.category == "inventory_type").map fun t => (t.id, t.name)

namespace Store

variable {s : Store} {answer : List (Int × String)} {skill : Int}

theorem get?_answered_of_not_mem (h : ∀ e ∈ answer, e.1 ≠ skill) :
    (s.answered answer).skillNames.get? skill = s.skillNames.get? skill := by
  have hnone : ∀ other, (skill, other) ∉ answer := fun other hmem => h _ hmem rfl
  ext name
  rw [get?_answered]
  constructor
  · rintro (⟨before, after, rfl, -⟩ | ⟨-, hname⟩)
    · exact absurd (by simp) (hnone name)
    · exact hname
  · exact fun hname => .inr ⟨hnone, hname⟩

theorem putSkillNames_itemNames (things : List Esi.NamedThing) (s : Store) :
    putSkillNames ((things.filter fun t => t.category == "inventory_type").map fun t =>
      SkillName.mk t.id t.name) s = (.ok (), s.answered (Esi.itemNames things)) := by
  rw [← putSkillNames_eq, Esi.itemNames, List.map_map]
  rfl

theorem keeps_names_putSnapshot (names : Table Int String) (s : Snapshot) (now : Instant) (id : Int)
    (token : TokenRow) : Keeps (fun t => t.skillNames = names) (s.put now id token) := by
  refine keeps_putSnapshot ?alliance ?corporation ?character ?token ?skill ?drop s now id token
  case alliance => exact fun _ => .modify fun _ h => h
  case corporation => exact fun _ => keeps_guarded fun _ h _ => h
  case character => exact fun _ _ => keeps_guarded fun _ h _ => h
  case token => exact fun _ => keeps_guarded fun _ h _ => h
  case skill => exact fun _ => keeps_guarded fun _ h _ => h
  case drop => exact fun _ _ => keeps_dropKeys (.modify fun _ h => h)

end Store

namespace Syncer

def withNames (y : Syncer ω) (names : List Int → Work ω EsiError (List Esi.NamedThing)) : Syncer ω :=
  { y with ask := fun
      | _, .names skills => names skills
      | token, c => y.ask token c }

def fetchStored (y : Syncer ω) (id : Int) : Sync ω CharacterData := do
  y.fetchAndStore (← y.loadToken id) id

/-- What ESI answers when it is asked for the names of the skills that have none; it is not asked when all
have one, or when they are too many to be looked up. -/
def heard (y : Syncer ω) (skills : List Int) (c : Scene ω) : Except (Halt EsiError) (List Esi.NamedThing) :=
  match c.database.store.unnamed skills with
  | .error _ | .ok [] => .ok []
  | .ok unnamed => (y.ask "" (.names unnamed) c.world).1

/-- A skill that was heard of, if names were asked for after some work, and the call did not fail. -/
def Mentions (y : Syncer ω) (work : Sync ω CharacterData) (c : Scene ω) (skill : Int) : Prop :=
  ∃ data c' things, work c = (.ok data, c') ∧ y.heard (data.skills.map (·.skillId)) c' = .ok things ∧
    ∃ t ∈ things, t.id = skill

section

variable (y : Syncer ω) {c : Scene ω}

theorem store_resolveNames (skills : List Int) (h : c.database.poisoned = false) :
    (y.resolveNames skills c).2.database.store = match y.heard skills c with
      | .ok things => c.database.store.answered (Esi.itemNames things)
      | .error _ => c.database.store := by
  have hlook := Sync.inside_of_unlocked h (Database.run (Store.look fun t => t.unnamed skills))
  rw [Database.run_look] at hlook
  rw [resolveNames, heard]
  rcases hunnamed : c.database.store.unnamed skills with e | _ | ⟨k, ks⟩
  · rw [hunnamed] at hlook
    rw [bind_of_error hlook]
    rfl
  · rw [hunnamed] at hlook
    rw [bind_of_ok hlook]
    rfl
  · rw [hunnamed] at hlook
    rw [bind_of_ok hlook]
    have hask := Sync.outside_eq .esi (y.ask "" (.names (k :: ks))) c
    rw [if_neg (by simp)]
    dsimp only
    rcases hr : y.ask "" (.names (k :: ks)) c.world with ⟨e | things, w⟩
    · rw [hr] at hask
      rw [bind_of_error hask]
    · rw [hr] at hask
      have hput : Sync.inside (Database.run (Store.putSkillNames
          ((things.filter fun t => t.category == "inventory_type").map fun t =>
            SkillName.mk t.id t.name))) ⟨w, c.database⟩ =
          (.ok (), ⟨w, { c.database with store := c.database.store.answered (Esi.itemNames things) }⟩) := by
        rw [Sync.inside_of_unlocked (c := ⟨w, c.database⟩) h, Database.run, Store.putSkillNames_itemNames]
      rw [bind_of_ok hask, bind_of_ok hput]
      rfl

theorem get?_resolveNames {skills : List Int} {skill : Int}
    (h : ∀ things, y.heard skills c = .ok things → ∀ t ∈ things, t.id ≠ skill) :
    (y.resolveNames skills c).2.database.store.skillNames.get? skill =
      c.database.store.skillNames.get? skill := by
  cases hpoisoned : c.database.poisoned with
  | true =>
    have hlook : Sync.inside (Database.run (Store.look fun t => t.unnamed skills)) c =
        (.error (.failed (.store .poisoned)), c) := by
      rw [Sync.inside, Database.locked_of_poisoned hpoisoned]
    rw [resolveNames, bind_of_error hlook]
  | false =>
    rw [y.store_resolveNames skills hpoisoned]
    rcases hheard : y.heard skills c with e | things
    · rfl
    · refine Store.get?_answered_of_not_mem fun e he => ?_
      obtain ⟨t, ht, rfl⟩ := List.mem_map.1 he
      exact h things hheard t (List.mem_of_mem_filter ht)

theorem keeps_names_fetchAndStore (names : Table Int String) (token : Token) (id : Int) :
    Keeps (fun c => c.database.store.skillNames = names) (y.fetchAndStore token id) :=
  .bind (Sync.keeps_outside (P := fun d => d.store.skillNames = names) _ _) fun s =>
    .bind (Sync.keeps_change (P := fun d => d.store.skillNames = names) _) fun row c hc =>
      Sync.keeps_inside (Database.keeps_store_atomically
        (Store.keeps_names_putSnapshot names s (y.now c.world) id row)) c hc

end

/-- Two syncs tell the same, and leave the same but for names of skills. -/
def SameButNames (r r' : Except (Halt SyncError) CharacterData × Scene ω) : Prop :=
  r.1 = r'.1 ∧ r.2.database.Renames r'.2.database

section

variable (y : Syncer ω) (names names' : List Int → Work ω EsiError (List Esi.NamedThing)) {c : Scene ω}

theorem refreshWith_withNames (token : Token) (id : Int) :
    (y.withNames names).refreshWith token id = (y.withNames names).limited id (y.fetchAndStore token id) :=
  rfl

theorem refresh_withNames (id : Int) :
    (y.withNames names).refresh id = (y.withNames names).limited id (y.fetchStored id) :=
  rfl

theorem limited_sameButNames (id : Int) (work : Sync ω CharacterData) (c : Scene ω) :
    SameButNames ((y.withNames names).limited id work c) ((y.withNames names').limited id work c) := by
  rcases hw : work c with ⟨h | data, c'⟩
  · rw [limited_of_error _ hw, limited_of_error _ hw]
    exact ⟨rfl, c'.database.renames_self⟩
  · obtain ⟨w, table, hleft⟩ :=
      (y.withNames names).resolveNames_renames (data.skills.map (·.skillId)) c'
    obtain ⟨w', table', hright⟩ :=
      (y.withNames names').resolveNames_renames (data.skills.map (·.skillId)) c'
    rw [limited_of_ok _ id hw, limited_of_ok _ id hw, hleft, hright]
    exact ⟨rfl, table', rfl⟩

theorem get?_limited {id skill : Int} {work : Sync ω CharacterData}
    (hwork : Keeps (fun c' => c'.database.store.skillNames = c.database.store.skillNames) work)
    (h : ¬y.Mentions work c skill) :
    (y.limited id work c).2.database.store.skillNames.get? skill =
      c.database.store.skillNames.get? skill := by
  have hnames := hwork c rfl
  rcases hw : work c with ⟨e | data, c'⟩
  · rw [hw] at hnames
    rw [limited_of_error y hw, hnames]
  · rw [hw] at hnames
    rw [limited_of_ok y id hw, get?_resolveNames, hnames]
    exact fun things hthings t ht hid => h ⟨data, c', things, hw, hthings, t, ht, hid⟩

/-- Whatever ESI answers when it is asked for names, also nothing at all, a sync tells the same and leaves
the same but for names; and a skill that it does not mention keeps the name that it has. -/
theorem names_do_not_interfere (y : Syncer ω)
    (names names' : List Int → Work ω EsiError (List Esi.NamedThing)) (id : Int) (c : Scene ω) :
    (∀ token,
      SameButNames ((y.withNames names).refreshWith token id c)
        ((y.withNames names').refreshWith token id c) ∧
      ∀ skill, ¬(y.withNames names).Mentions (y.fetchAndStore token id) c skill →
        ((y.withNames names).refreshWith token id c).2.database.store.skillNames.get? skill =
          c.database.store.skillNames.get? skill) ∧
    SameButNames ((y.withNames names).refresh id c) ((y.withNames names').refresh id c) ∧
    ∀ skill, ¬(y.withNames names).Mentions (y.fetchStored id) c skill →
      ((y.withNames names).refresh id c).2.database.store.skillNames.get? skill =
        c.database.store.skillNames.get? skill := by
  refine ⟨fun token => ⟨?_, fun skill h => ?_⟩, ?_, fun skill h => ?_⟩
  · rw [refreshWith_withNames, refreshWith_withNames]
    exact y.limited_sameButNames names names' id _ c
  · rw [refreshWith_withNames]
    exact (y.withNames names).get?_limited (y.keeps_names_fetchAndStore _ token id) h
  · rw [refresh_withNames, refresh_withNames]
    exact y.limited_sameButNames names names' id _ c
  · rw [refresh_withNames]
    refine (y.withNames names).get?_limited (.bind ?_ fun token => ?_) h
    · exact y.keeps_loadToken (P := fun d => d.store.skillNames = c.database.store.skillNames) id
    · exact y.keeps_names_fetchAndStore _ token id

end

def spoken : List Esi.NamedThing :=
  [⟨3300, "Gunnery", "inventory_type"⟩, ⟨500, "Caldari Navy", "corporation"⟩]

def someNames : List Int → Work Unit EsiError (List Esi.NamedThing) := fun _ => pure spoken

def noNames : List Int → Work Unit EsiError (List Esi.NamedThing) := fun _ => throw .stalled

def mine : Scene Unit := ⟨(), (Database.run (Store.putSkillNames [⟨3386, "Mining"⟩]) .fresh).2⟩

theorem refreshWith_mine : ((registry.withNames noNames).refreshWith fleetToken 1 mine).1 =
    .ok ⟨⟨1, "Pilot", "", 500⟩, ⟨500, none, "Caldari Navy", "CN", ""⟩, none, [⟨1, 3300, 5⟩]⟩ :=
  eq_ok_of_toOption (by decide +kernel)

theorem gunnery_mine : ((registry.withNames someNames).refreshWith fleetToken 1
    mine).2.database.store.skillNames.get? 3300 = some "Gunnery" := by decide +kernel

theorem miner_is_synced_without_names :
    let c : Scene Unit := ⟨(), (Database.run (Store.putSkillNames [⟨3386, "Mining"⟩]) .fresh).2⟩
    let sync names := (registry.withNames names).refreshWith fleetToken 1 c
    (sync noNames).1 =
      .ok ⟨⟨1, "Pilot", "", 500⟩, ⟨500, none, "Caldari Navy", "CN", ""⟩, none, [⟨1, 3300, 5⟩]⟩ ∧
    SameButNames (sync someNames) (sync noNames) ∧
    (sync someNames).2.database.store.skillNames.get? 3300 = some "Gunnery" ∧
    ¬(registry.withNames someNames).Mentions (registry.fetchAndStore fleetToken 1) c 3386 ∧
    (sync someNames).2.database.store.skillNames.get? 3386 = some "Mining" := by
  obtain ⟨hsync, -⟩ := names_do_not_interfere registry someNames noNames 1 mine
  obtain ⟨hsame, hkept⟩ := hsync fleetToken
  have hmentions : ¬(registry.withNames someNames).Mentions (registry.fetchAndStore fleetToken 1) mine
      3386 := by
    rintro ⟨data, c', things, -, hheard, t, ht, hid⟩
    rw [heard] at hheard
    split at hheard
    · cases hheard
      cases ht
    · cases hheard
      cases ht
    · cases hheard
      have hother : ∀ t ∈ spoken, t.id ≠ 3386 := by decide
      exact hother t ht hid
  have hmining : mine.database.store.skillNames.get? 3386 = some "Mining" := by decide +kernel
  exact ⟨refreshWith_mine, hsame, gunnery_mine, hmentions, (hkept 3386 hmentions).trans hmining⟩

end Syncer

end Muster
