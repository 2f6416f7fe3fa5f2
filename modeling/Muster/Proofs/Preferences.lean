import Muster.Proofs.Deletion

/-! Settings read back as they were stored, in a normal form when they are saved by a command. A level that
is chosen counts from then on, also when it could not be stored. -/

namespace Muster

variable {ω : Type}

namespace Level

theorem read_name (l : Level) : read l.name = l := by
  cases l <;> decide +kernel

theorem toLower_name (l : Level) : l.name.toLower = l.name := by
  cases l <;> decide +kernel

end Level

namespace Settings

/-- A list holds what another one holds, in the order in which each comes first, and so once. -/
structure FirstsOf (xs ys : List Int) : Prop where
  same : ∀ i, i ∈ ys ↔ i ∈ xs
  order : ys.Pairwise fun i j => xs.idxOf i < xs.idxOf j

variable {xs ys zs : List Int} {v w w' : Settings}

theorem FirstsOf.nodup (h : FirstsOf xs ys) : ys.Nodup :=
  List.Pairwise.imp (fun hlt heq => Nat.ne_of_lt hlt (congrArg (xs.idxOf ·) heq)) h.order

theorem FirstsOf.unique (hy : FirstsOf xs ys) (hz : FirstsOf xs zs) : ys = zs := by
  have hperm : ys.Perm zs :=
    (List.perm_ext_iff_of_nodup hy.nodup hz.nodup).2 fun i => by rw [hy.same, hz.same]
  exact hperm.eq_of_pairwise (fun i j _ _ hij hji => absurd hji (Nat.lt_asymm hij)) hy.order hz.order

theorem eraseDups_concat (xs : List Int) (x : Int) :
    (xs ++ [x]).eraseDups = xs.eraseDups ++ if x ∈ xs then [] else [x] := by
  have hone : [x].eraseDups = [x] := rfl
  rw [List.eraseDups_append, List.removeAll]
  by_cases hx : x ∈ xs <;> simp [hx, hone]

theorem firstsOf_eraseDups (xs : List Int) : FirstsOf xs xs.eraseDups where
  same _ := List.mem_eraseDups
  order := by
    induction xs using List.reverseRecOn with
    | nil => exact .nil
    | append_singleton xs x ih =>
      have hindex (i : Int) (hi : i ∈ xs) : (xs ++ [x]).idxOf i = xs.idxOf i := List.idxOf_append_of_mem hi
      rw [eraseDups_concat, List.pairwise_append]
      refine ⟨ih.imp_of_mem fun hi hj hlt => ?_, ?_, fun i hi j hj => ?_⟩
      · rwa [hindex _ (List.mem_eraseDups.1 hi), hindex _ (List.mem_eraseDups.1 hj)]
      · split <;> simp
      · have hi := List.mem_eraseDups.1 hi
        split at hj
        · cases hj
        · rename_i hx
          obtain rfl := List.mem_singleton.1 hj
          rw [hindex i hi, List.idxOf_append_of_notMem hx]
          exact Nat.lt_add_right _ (List.idxOf_lt_length_of_mem hi)

theorem eraseDups_of_nodup (h : xs.Nodup) : xs.eraseDups = xs := by
  induction xs using List.reverseRecOn with
  | nil => rfl
  | append_singleton xs x ih =>
    obtain ⟨hxs, -, hapart⟩ := List.nodup_append.1 h
    have hx : x ∉ xs := fun hx => hapart x hx x (List.mem_singleton_self x) rfl
    rw [eraseDups_concat, ih hxs, if_neg hx]

structure Normalizes (v w : Settings) : Prop where
  level : w.logLevel = (Level.read v.logLevel).name
  lower : w.logLevel.toLower = w.logLevel
  tagIds : FirstsOf v.tagIds w.tagIds
  roleIds : FirstsOf v.roleIds w.roleIds

theorem normalizes_normalize (v : Settings) : v.Normalizes v.normalize where
  level := rfl
  lower := Level.toLower_name _
  tagIds := firstsOf_eraseDups _
  roleIds := firstsOf_eraseDups _

theorem Normalizes.unique (hw : v.Normalizes w) (hw' : v.Normalizes w') : w = w' := by
  have hlevel := hw.level.trans hw'.level.symm
  have htags := hw.tagIds.unique hw'.tagIds
  have hroles := hw.roleIds.unique hw'.roleIds
  obtain ⟨l, ts, rs⟩ := w
  obtain ⟨l', ts', rs'⟩ := w'
  exact congr (congr (congrArg Settings.mk hlevel) htags) hroles

theorem normalize_normalize (v : Settings) : v.normalize.normalize = v.normalize := by
  have htags := eraseDups_of_nodup (firstsOf_eraseDups v.tagIds).nodup
  have hroles := eraseDups_of_nodup (firstsOf_eraseDups v.roleIds).nodup
  rw [normalize, normalize, Level.read_name, htags, hroles]

theorem Normalizes.character (h : v.Normalizes w) (c : CharacterData) (tags : List TagData)
    (roles : List RoleData) :
    Matching.character c tags roles ⟨w.tagIds, w.roleIds⟩ =
      Matching.character c tags roles ⟨v.tagIds, v.roleIds⟩ := by
  have hall {is js : List Int} (hsame : FirstsOf is js) (p : Int → Bool) : js.all p = is.all p := by
    rw [Bool.eq_iff_iff, List.all_eq_true, List.all_eq_true]
    exact forall_congr' fun i => by rw [hsame.same]
  simp only [Matching.character, Filter.admits, hall h.tagIds, hall h.roleIds]

end Settings

namespace Store

variable {s : Store} {v : Settings}

/-- Settings are stored as the one row under their key, and nothing else has changed. -/
structure Records (v : Settings) (s t : Store) : Prop where
  row : t.settings.get? settingsKey = some v.write
  once : t.settings.keys.count settingsKey = 1
  others : ∀ key, key ≠ settingsKey → t.settings.get? key = s.settings.get? key
  rest : t = { s with settings := t.settings }

theorem putSettings_eq (v : Settings) (s : Store) : putSettings v s = (.ok (), s.withSettings v) := rfl

theorem records_withSettings (v : Settings) (s : Store) : Records v s (s.withSettings v) := by
  have hrow : (s.withSettings v).settings.get? settingsKey = some v.write := by
    rw [withSettings, Table.get?_insert, if_pos rfl]
  refine ⟨hrow, List.count_eq_one_of_mem (Table.nodup_keys _) (Table.mem_keys.2 ?_), fun key hkey => ?_, rfl⟩
  · rw [Table.contains, hrow]
    rfl
  · rw [withSettings, Table.get?_insert, if_neg hkey]

theorem withSettings_withSettings (s : Store) (v : Settings) :
    (s.withSettings v).withSettings v = s.withSettings v := by
  have h : ((s.settings.insert settingsKey v.write).insert settingsKey v.write) =
      s.settings.insert settingsKey v.write := by
    refine Table.ext_get? fun key => ?_
    rw [Table.get?_insert, Table.get?_insert]
    split <;> rfl
  rw [withSettings, withSettings, h]

end Store

/-- The level of the log is the one that the stored settings name. -/
def Session.InStep (s : Session ω) : Prop :=
  ∃ v, s.database.store.settings? = .ok v ∧ v.logLevel = s.level.name

namespace App

variable {s t : Session ω} {v : Settings} {raw : String} {e : Halt PublicError}

theorem settings_of_ok (hs : s.database.poisoned = false) (hv : s.database.store.settings? = .ok v) :
    settings s = (.ok v, s) := by
  rw [settings, Command.look, Command.inside_run, hs, if_neg Bool.false_ne_true, Store.look_apply, hv]
  exact congrArg (Prod.mk _) (Session.withStore_eq_self_iff.2 rfl)

theorem saveSettings_eq (v : Settings) (s : Session ω) :
    saveSettings v s =
      if s.database.poisoned then
        (.error (.failed ((PublicError.new "Could not save settings").withHidden StoreError.poisoned.chain)), s)
      else
        (.ok (), { s.withStore (s.database.store.withSettings v.normalize) with
          level := Level.read v.logLevel }) := by
  have hstore := Command.inside_run "Could not save settings" (Store.putSettings v.normalize) s
  cases hp : s.database.poisoned with
  | true =>
    rw [hp, if_pos rfl] at hstore
    rw [saveSettings, bind_of_error hstore, if_pos rfl]
  | false =>
    rw [hp, if_neg Bool.false_ne_true, Store.putSettings_eq] at hstore
    rw [saveSettings, bind_of_ok hstore, if_neg Bool.false_ne_true, setLevel]
    dsimp only [Settings.normalize]
    rw [Level.read_name]

theorem saveSettings_of_unlocked (hs : s.database.poisoned = false) (v : Settings) :
    saveSettings v s = (.ok (), { s.withStore (s.database.store.withSettings v.normalize) with
      level := Level.read v.logLevel }) := by
  rw [saveSettings_eq, hs, if_neg Bool.false_ne_true]

theorem saveSettings_again (hs : s.database.poisoned = false) (h : saveSettings v s = (.ok (), t)) :
    saveSettings v.normalize t = (.ok (), t) := by
  have ht := (Prod.mk.inj (h.symm.trans (saveSettings_of_unlocked hs v))).2
  have hlocks : t.database.poisoned = false := by rwa [ht]
  have hlevel : Level.read v.normalize.logLevel = Level.read v.logLevel := Level.read_name _
  rw [saveSettings_of_unlocked hlocks, v.normalize_normalize, hlevel, ht]
  dsimp only [Session.withStore]
  rw [Store.withSettings_withSettings]

theorem storeLevel_eq (l : Level) (s : Store) :
    storeLevel l s =
      match s.settings? with
      | .ok v => (.ok (), s.withSettings { v with logLevel := l.name })
      | .error e => (.error e, s) := by
  cases hv : s.settings? with
  | error e =>
    have hlook : Store.look Store.settings? s = (.error e, s) := by rw [Store.look_apply, hv]
    rw [storeLevel, bind_of_error hlook]
  | ok v =>
    have hlook : Store.look Store.settings? s = (.ok v, s) := by rw [Store.look_apply, hv]
    rw [storeLevel, bind_of_ok hlook]
    rfl

theorem chooseLevel_eq (raw : String) (s : Session ω) :
    chooseLevel raw s =
      let message := PublicError.new "Could not save log level"
      let t := { s with level := Level.read raw }
      if s.database.poisoned then (.error (.failed (message.withHidden StoreError.poisoned.chain)), t)
      else
        match s.database.store.settings? with
        | .ok v => (.ok (), t.withStore (s.database.store.withSettings { v with logLevel := t.level.name }))
        | .error e => (.error (.failed (message.withHidden e.chain)), t) := by
  have hset : setLevel (Level.read raw) s = (.ok (), { s with level := Level.read raw }) := rfl
  rw [chooseLevel, bind_of_ok hset, Command.inside_run, storeLevel_eq]
  dsimp only
  cases s.database.poisoned with
  | true => rfl
  | false => cases s.database.store.settings? <;> rfl

theorem saveSettings_fails_iff :
    (∃ e t, saveSettings v s = (.error e, t)) ↔ s.database.poisoned = true := by
  rw [saveSettings_eq]
  cases s.database.poisoned with
  | true => exact ⟨fun _ => rfl, fun _ => ⟨_, _, rfl⟩⟩
  | false => exact ⟨fun ⟨_, _, h⟩ => (nomatch h), nofun⟩

theorem chooseLevel_fails_iff :
    (∃ e t, chooseLevel raw s = (.error e, t)) ↔
      s.database.poisoned = true ∨ ∃ why, s.database.store.settings? = .error why := by
  rw [chooseLevel_eq]
  cases s.database.poisoned with
  | true => exact ⟨fun _ => .inl rfl, fun _ => ⟨_, _, rfl⟩⟩
  | false =>
    cases s.database.store.settings? with
    | error why => exact ⟨fun _ => .inr ⟨why, rfl⟩, fun _ => ⟨_, _, rfl⟩⟩
    | ok v => exact ⟨fun ⟨_, _, h⟩ => (nomatch h), fun h => h.elim nofun fun ⟨_, h⟩ => (nomatch h)⟩

theorem failed_saveSettings (h : saveSettings v s = (.error e, t)) : t = s := by
  rw [saveSettings_eq] at h
  split at h <;> cases h
  rfl

theorem failed_chooseLevel (h : chooseLevel raw s = (.error e, t)) :
    t = { s with level := Level.read raw } := by
  rw [chooseLevel_eq] at h
  dsimp only at h
  split at h
  · cases h
    rfl
  · split at h <;> cases h
    rfl

theorem inStep_saveSettings (hv : v.Fits) (h : saveSettings v s = (.ok (), t)) : t.InStep := by
  rw [saveSettings_eq] at h
  split at h <;> cases h
  exact ⟨v.normalize, Store.settings?_withSettings _ hv.normalize, rfl⟩

theorem inStep_chooseLevel (h : chooseLevel raw s = (.ok (), t)) : t.InStep := by
  rw [chooseLevel_eq] at h
  dsimp only at h
  split at h
  · cases h
  · split at h <;> cases h
    rename_i v hv
    have hfits : ({ v with logLevel := (Level.read raw).name } : Settings).Fits :=
      (Settings.fits_of_settings? hv).of_subset (List.Subset.refl _) (List.Subset.refl _)
    exact ⟨_, Store.settings?_withSettings _ hfits, rfl⟩

/-- Settings read back as they were stored. When they are saved their normal form is stored; to save that
changes nothing, and as a filter it shows the same characters. -/
theorem settings_are_kept_in_normal_form (hv : v.Fits) :
    (∀ d : Database, ∃ u, Database.run (Store.putSettings v) d = (.ok (), { d with store := u }) ∧
      Store.Records v d.store u ∧
      Database.run (Store.look Store.settings?) { d with store := u } = (.ok v, { d with store := u })) ∧
    ∃ w, v.Normalizes w ∧
      (∀ s : Session ω, s.database.poisoned = false →
        ∃ u t, t = { s.withStore u with level := Level.read v.logLevel } ∧
          saveSettings v s = (.ok (), t) ∧ Store.Records w s.database.store u ∧
          settings t = (.ok w, t) ∧ saveSettings w t = (.ok (), t)) ∧
      ∀ c tags roles, Matching.character c tags roles ⟨w.tagIds, w.roleIds⟩ =
        Matching.character c tags roles ⟨v.tagIds, v.roleIds⟩ := by
  have hnormal := v.normalizes_normalize
  refine ⟨fun d => ⟨d.store.withSettings v, ?_, Store.records_withSettings v _, ?_⟩, v.normalize, hnormal,
    fun s hs => ?_, hnormal.character⟩
  · rw [Database.run, Store.putSettings_eq]
  · rw [Database.run, Store.look_apply, Store.settings?_withSettings _ hv]
  · have hsave := saveSettings_of_unlocked hs v
    exact ⟨_, _, rfl, hsave, Store.records_withSettings _ _,
      settings_of_ok hs (Store.settings?_withSettings _ hv.normalize), saveSettings_again hs hsave⟩

def wordy : Settings := ⟨" WARNING ", [3, 1, 3, 2, 1], [5, 5]⟩

theorem fits_wordy : wordy.Fits := by
  rw [Settings.Fits]
  decide

theorem wordy_is_kept_in_normal_form :
    wordy.Fits ∧ garbled.database.poisoned = false ∧
      ∃ t, saveSettings wordy garbled = (.ok (), t) ∧ t.level = .warn ∧
        settings t = (.ok ⟨"warn", [3, 1, 2], [5]⟩, t) := by
  obtain ⟨-, w, hw, hsaves, -⟩ := settings_are_kept_in_normal_form fits_wordy
  obtain ⟨u, t, ht, hsave, -, hsettings, -⟩ := hsaves garbled rfl
  have hnormal : w = ⟨"warn", [3, 1, 2], [5]⟩ :=
    (hw.unique wordy.normalizes_normalize).trans (by decide +kernel)
  have hlevel : Level.read wordy.logLevel = .warn := by decide +kernel
  rw [hnormal] at hsettings
  refine ⟨fits_wordy, rfl, t, hsave, ?_, hsettings⟩
  rw [ht, ← hlevel]

/-- Settings that are not saved change nothing. A level that is not stored has been taken up all the
same, and nothing but it has changed. What is stored names the level that counts. -/
theorem level_counts_before_it_is_stored (s : Session ω) :
    (∀ v, ((∃ e t, saveSettings v s = (.error e, t)) ↔ s.database.poisoned = true) ∧
      ∀ e t, saveSettings v s = (.error e, t) → t = s) ∧
    (∀ raw, ((∃ e t, chooseLevel raw s = (.error e, t)) ↔
        s.database.poisoned = true ∨ ∃ why, s.database.store.settings? = .error why) ∧
      ∀ e t, chooseLevel raw s = (.error e, t) →
        t = { s with level := Level.read raw } ∧ (t = s ↔ s.level = Level.read raw)) ∧
    (∀ v t, v.Fits → saveSettings v s = (.ok (), t) → t.InStep) ∧
    ∀ raw t, chooseLevel raw s = (.ok (), t) → t.InStep := by
  refine ⟨fun v => ⟨saveSettings_fails_iff, fun e t => failed_saveSettings⟩,
    fun raw => ⟨chooseLevel_fails_iff, fun e t h => ?_⟩, fun v t => inStep_saveSettings,
    fun raw t => inStep_chooseLevel⟩
  have ht := failed_chooseLevel h
  refine ⟨ht, fun hs => ?_, fun hl => ?_⟩
  · rw [← hs, ht]
  · rw [ht, ← hl]

theorem garbled_choice_counts :
    (∃ e t, chooseLevel " DEBUG " garbled = (.error e, t) ∧ t = { garbled with level := .debug } ∧
      t ≠ garbled) ∧
    wordy.Fits ∧ ∃ t, saveSettings wordy garbled = (.ok (), t) ∧ t.InStep := by
  obtain ⟨-, hchoose, hsave, -⟩ := level_counts_before_it_is_stored garbled
  have hread : Level.read " DEBUG " = .debug := by decide +kernel
  have hsaved := saveSettings_of_unlocked (s := garbled) rfl wordy
  obtain ⟨hfails, hafter⟩ := hchoose " DEBUG "
  obtain ⟨e, t, h⟩ := hfails.2 (.inr ⟨_, garbled_settings⟩)
  obtain ⟨ht, hsame⟩ := hafter e t h
  rw [hread] at ht hsame
  exact ⟨⟨e, t, h, ht, fun hs => Level.noConfusion (hsame.1 hs)⟩, fits_wordy, _, hsaved,
    hsave wordy _ fits_wordy hsaved⟩

/-- The settings cannot be read, an error comes back, and yet from now on the log tells more. -/
theorem unread_settings_lose_the_level :
    ∃ e t, chooseLevel "debug" garbled = (.error e, t) ∧ garbled.level = .info ∧ t.level = .debug := by
  have hread : Level.read "debug" = .debug := by decide +kernel
  have hfails : ∃ e t, chooseLevel "debug" garbled = (.error e, t) :=
    chooseLevel_fails_iff.2 (.inr ⟨_, garbled_settings⟩)
  obtain ⟨e, t, h⟩ := hfails
  refine ⟨e, t, h, rfl, ?_⟩
  rw [failed_chooseLevel h, hread]

end App

end Muster
