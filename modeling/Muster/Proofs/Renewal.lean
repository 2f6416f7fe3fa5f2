import Muster.Proofs.SyncOutcome
import Muster.Sync.Syncer

/-! A token that was renewed is kept together with a snapshot, and lost when there is none to store: then
the token is still the old one. -/

namespace Muster

variable {ω σ : Type}

/-- Reading tells what the vault holds and changes nothing of it. -/
structure Vault.Truthful (v : Vault σ) (held : σ → String → Option String) : Prop where
  opens : ∀ key s, (v.openEntry key s).1 = .ok () ∧ held (v.openEntry key s).2 = held s
  reads : ∀ key s, (v.read key s).1 = (held s key).elim (.error .noEntry) .ok ∧
    held (v.read key s).2 = held s

def Vault.memory : Vault (Table String String) where
  openEntry _ s := (.ok (), s)
  write key value s := (.ok (), s.insert key value)
  read key s := ((s.get? key).elim (.error .noEntry) .ok, s)
  remove key s := (if s.contains key then .ok () else .error .noEntry, s.erase key)

theorem Vault.truthful_memory : Vault.memory.Truthful fun s key => s.get? key :=
  ⟨fun _ _ => ⟨rfl, rfl⟩, fun _ _ => ⟨rfl, rfl⟩⟩

namespace Keychain

/-- The keychain is not used, or it can be relied on. -/
def Faithful (v : Vault σ) (held : σ → String → Option String) (k : Keychain σ) : Prop :=
  k.unavailable = true ∨ v.Truthful held

variable {v : Vault σ} {held : σ → String → Option String} {k : Keychain σ}

theorem attempt_of_unavailable {α : Type} (h : k.unavailable = true) (key doing : String) (absent : α)
    (op : σ → Except VaultError α × σ) : attempt v key doing absent op k = (.ok absent, k) :=
  if_pos h

theorem get_of_unavailable (h : k.unavailable = true) (key : String) :
    get v key k = (.ok none, k) :=
  attempt_of_unavailable h ..

theorem get_of_truthful (hv : v.Truthful held) (h : k.unavailable = false) (key : String) :
    ∃ s, get v key k = (.ok (held k.vault key), ⟨false, s⟩) ∧ held s = held k.vault := by
  obtain ⟨hopen, hheld⟩ := hv.opens key k.vault
  rcases hs : v.openEntry key k.vault with ⟨r, s⟩
  rw [hs] at hopen hheld
  cases hopen
  obtain ⟨hread, hsame⟩ := hv.reads key s
  rcases ht : v.read key s with ⟨r, t⟩
  rw [ht] at hread hsame
  refine ⟨t, ?_, hsame.trans hheld⟩
  rw [get, attempt, if_neg (by simp [h]), hs, ← hheld]
  simp only [ht] at hread ⊢
  cases hfound : held s key with
  | none =>
    rw [hfound] at hread
    cases hread
    rfl
  | some found =>
    rw [hfound] at hread
    cases hread
    rfl

theorem get_again (hk : k.Faithful v held) (key : String) :
    (get v key (get v key k).2).1 = (get v key k).1 := by
  cases hu : k.unavailable with
  | true =>
    rw [get_of_unavailable hu, get_of_unavailable hu]
  | false =>
    obtain hu' | hv := hk
    · rw [hu] at hu'
      cases hu'
    · obtain ⟨s, hget, hheld⟩ := get_of_truthful hv hu key
      obtain ⟨s', hget', -⟩ := get_of_truthful (k := ⟨false, s⟩) hv rfl key
      rw [hget, hget', hheld]

theorem restore_of_secret {row : TokenRow} (h : row.refreshToken ≠ "") : restore v row k = (row, k) := by
  rw [restore, if_neg (by simpa using h)]

theorem restore_of_empty {row : TokenRow} (h : row.refreshToken = "") :
    restore v row k = (match (get v (entryName row.characterId) k).1 with
      | .ok (some found) => { row with refreshToken := found }
      | _ => row, (get v (entryName row.characterId) k).2) := by
  rw [restore, if_pos (by simp [h])]
  rcases get v (entryName row.characterId) k with ⟨_ | _ | _, _⟩ <;> rfl

theorem restore_again (hk : k.Faithful v held) (row : TokenRow) :
    (restore v row (restore v row k).2).1 = (restore v row k).1 := by
  by_cases h : row.refreshToken = ""
  · rw [restore_of_empty h, restore_of_empty h, get_again hk]
  · rw [restore_of_secret h, restore_of_secret h]

/-- A refresh token stays in its row, unless it was stored in the keychain and read back from there. -/
theorem stow_cases (v : Vault σ) (row : TokenRow) (k : Keychain σ) :
    (stow v row k).1 = row ∨
    (stow v row k).1 = { row with refreshToken := "" } ∧
      ∃ k₁, store v (entryName row.characterId) row.refreshToken k = (.ok true, k₁) ∧
        get v (entryName row.characterId) k₁ = (.ok (some row.refreshToken), (stow v row k).2) := by
  rw [stow]
  split
  · exact .inl rfl
  · dsimp only
    rcases store v (entryName row.characterId) row.refreshToken k with ⟨_ | _ | _, k₁⟩
    · exact .inl rfl
    · exact .inl rfl
    · dsimp only
      rcases hget : get v (entryName row.characterId) k₁ with ⟨_ | _ | found, k₂⟩
      · exact .inl rfl
      · exact .inl rfl
      · by_cases hfound : found = row.refreshToken
        · subst hfound
          exact .inr ⟨if_pos rfl, k₁, rfl, hget⟩
        · exact .inl (if_neg hfound)

theorem stow_frame (v : Vault σ) (row : TokenRow) (k : Keychain σ) :
    (stow v row k).1.characterId = row.characterId ∧ (stow v row k).1.expiration = row.expiration := by
  obtain h | ⟨h, -⟩ := stow_cases v row k <;>
    · rw [h]
      exact ⟨rfl, rfl⟩

theorem Faithful.store {key value : String} {k₁ : Keychain σ} (hk : k.Faithful v held)
    (h : store v key value k = (.ok true, k₁)) : k₁.Faithful v held := by
  obtain hu | hv := hk
  · rw [Keychain.store, attempt_of_unavailable hu] at h
    cases h
  · exact .inr hv

theorem Faithful.restore (hk : k.Faithful v held) (row : TokenRow) :
    (restore v row k).2.Faithful v held := by
  obtain hu | hv := hk
  · left
    by_cases h : row.refreshToken = ""
    · rw [restore_of_empty h, get_of_unavailable hu]
      exact hu
    · rw [restore_of_secret h]
      exact hu
  · exact .inr hv

theorem restore_stow (hk : k.Faithful v held) {row r : TokenRow}
    (hrow : row.refreshToken ≠ "") (hid : r.characterId = row.characterId)
    (hr : r.refreshToken = (stow v row k).1.refreshToken) :
    (restore v r (stow v row k).2).1.refreshToken = row.refreshToken := by
  obtain h | ⟨h, k₁, hstore, hget⟩ := stow_cases v row k
  · rw [h] at hr
    rw [restore_of_secret (hr ▸ hrow), hr]
  · rw [h] at hr
    have hagain := get_again (hk.store hstore) (entryName row.characterId)
    rw [hget] at hagain
    dsimp only at hagain
    rw [restore_of_empty hr, hid, hagain]

end Keychain

namespace Snapshot

variable {P : ω → Prop} {ask : Esi.Api ω}

theorem keeps_fetch (h : ∀ token c, Keeps P (ask token c)) (token : String) (id : Int) :
    Keeps P (fetch ask token id) := by
  have halliance (c : Esi.CorporationData) : Keeps P (fetchAlliance ask token c) := by
    rw [fetchAlliance]
    split
    · exact .pure _
    · exact .bind (h _ _) fun _ => .bind (h _ _) fun _ => .pure _
  exact .bind (h _ _) fun _ => .bind (h _ _) fun _ => .bind (h _ _) fun _ => .bind (h _ _) fun _ =>
    .bind (h _ _) fun _ => .bind (halliance _) fun _ => .pure _

end Snapshot

theorem Store.token?_of_stored {s : Store} {id : Int} {t : StoredToken} {e : Instant}
    (h : (s.characters.get? id).bind (·.token) = some t) (he : Instant.read? t.expiration = some e) :
    s.token? id = .ok (some ⟨⟨t.accessToken, t.refreshToken, t.tokenType, e⟩, id⟩) := by
  rw [Store.token?, h]
  dsimp only
  rw [he]

namespace Syncer

/-- The refresh token that is read back for a character. -/
def Carries (y : Syncer ω) (id : Int) (secret : String) (c : Scene ω) : Prop :=
  ∃ row, c.database.store.token? id = .ok (some row) ∧ (y.restore row c.world).1.refreshToken = secret

/-- The token of a character, `old` once it is restored, ends soon, and `new` is issued for it. -/
def Renews (y : Syncer ω) (id : Int) (c : Scene ω) (old : TokenRow) (new : Token) (u : ω) : Prop :=
  ∃ row w, c.database.store.token? id = .ok (some row) ∧ y.restore row c.world = (old, w) ∧
    old.needsRefresh (y.now w) = true ∧ y.renew old.refreshToken w = (.ok new, u)

variable {y : Syncer ω} {c : Scene ω} {P : Store → Prop} {id : Int} {old : TokenRow} {new : Token}
  {u : ω}

theorem Renews.refresh_eq (h : y.Renews id c old new u) (hc : c.database.Kept P) :
    y.refresh id c = y.refreshWith new id ⟨u, c.database⟩ := by
  obtain ⟨row, w, hrow, hrestore, hends, hrenew⟩ := h
  have hload : y.loadToken id c = (.ok new, ⟨u, c.database⟩) := by
    rw [loadToken_eq hc, hrow]
    simp only [hrestore, hends, hrenew, if_true]
  exact y.limited_congr (bind_of_ok hload)

section

variable (y : Syncer ω) (v : Vault σ) {k : Keychain σ}

theorem owner_withKeychain (row : TokenRow) (p : ω × Keychain σ) :
    ((y.withKeychain v).stow row p).1.characterId = row.characterId :=
  (Keychain.stow_frame v row p.2).1

theorem keeps_ask_withKeychain (token : String) (call : Esi.Call) :
    Keeps (fun p => p.2 = k) ((y.withKeychain v).ask token call) :=
  Work.keeps_focus (P := fun _ => True) (fun _ _ => trivial) (fun _ _ => trivial) fun _ _ h _ => h

theorem keeps_renew_withKeychain (secret : String) :
    Keeps (fun p => p.2 = k) ((y.withKeychain v).renew secret) :=
  Work.keeps_focus (P := fun _ => True) (fun _ _ => trivial) (fun _ _ => trivial) fun _ _ h _ => h

theorem keeps_resolveNames_withKeychain (skills : List Int) :
    Keeps (fun c => c.world.2 = k) ((y.withKeychain v).resolveNames skills) := by
  have hinside {α : Type} (a : Database.Action α) :
      Keeps (fun c : Scene (ω × Keychain σ) => c.world.2 = k) (Sync.inside a) := by
    intro c hc
    rw [Sync.inside]
    rcases Database.locked a c.database with ⟨_ | _, _⟩ <;> exact hc
  exact .bind (hinside _) fun _ => .ite (.pure 0) (.bind
    (Work.keeps_focus (Work.keeps_mapError (y.keeps_ask_withKeychain v _ _) _) (fun _ h => h)
      fun _ _ _ h => h) fun _ => .bind (hinside _) fun _ => .pure _)

theorem resolveNames_withKeychain (skills : List Int) (p : ω × Keychain σ) (d : Database) :
    ∃ w names, ((y.withKeychain v).resolveNames skills ⟨p, d⟩).2 = ⟨w, d.named names⟩ ∧ w.2 = p.2 := by
  have hsame := y.keeps_resolveNames_withKeychain v skills ⟨p, d⟩ rfl
  obtain ⟨w, names, hnames⟩ := (y.withKeychain v).resolveNames_renames skills ⟨p, d⟩
  rw [hnames] at hsame
  exact ⟨w, names, hnames, hsame⟩

end

section

variable {v : Vault σ} {held : σ → String → Option String} {c : Scene (ω × Keychain σ)}
  {u : ω × Keychain σ}

theorem Renews.keychain_eq (h : (y.withKeychain v).Renews id c old new u) :
    ∃ row, c.database.store.token? id = .ok (some row) ∧
      (old, u.2) = Keychain.restore v row c.world.2 := by
  obtain ⟨row, w, hrow, hrestore, -, hrenew⟩ := h
  cases hrestore
  have hkeep := (y.keeps_renew_withKeychain v _).of_run hrenew rfl
  exact ⟨row, hrow, by rw [hkeep]⟩

theorem Renews.carries_old (h : (y.withKeychain v).Renews id c old new u)
    (hk : c.world.2.Faithful v held) {w : ω × Keychain σ} (hw : w.2 = u.2) :
    (y.withKeychain v).Carries id old.refreshToken ⟨w, c.database⟩ := by
  obtain ⟨row, hrow, hold⟩ := h.keychain_eq
  refine ⟨row, hrow, ?_⟩
  have hagain := Keychain.restore_again hk row
  rw [← hold] at hagain
  change (Keychain.restore v row w.2).1.refreshToken = _
  rw [hw, hagain]

theorem carries_settled (hk : u.2.Faithful v held) (hissued : new.refreshToken ≠ "")
    (hreadable : ∃ e, Instant.read? new.expiration.secondsText = some e) (s : Snapshot) (now : Instant)
    (d : Database) (names : Table Int String) {w : ω × Keychain σ}
    (hw : w.2 = (Keychain.stow v (new.forCharacter id) u.2).2) :
    (y.withKeychain v).Carries id new.refreshToken
      ⟨w, (s.settled now id (Keychain.stow v (new.forCharacter id) u.2).1 d).named names⟩ := by
  obtain ⟨e, he⟩ := hreadable
  have hstored : (((s.settled now id (Keychain.stow v (new.forCharacter id) u.2).1 d).named
      names).store.characters.get? id).bind (·.token) =
        some (Store.stored (Keychain.stow v (new.forCharacter id) u.2).1) := by
    rw [Database.named, Snapshot.settled, s.get?_settle]
    rfl
  have hexpiration :
      Instant.read? (Store.stored (Keychain.stow v (new.forCharacter id) u.2).1).expiration = some e := by
    rw [Store.stored, (Keychain.stow_frame v _ _).2]
    exact he
  refine ⟨_, Store.token?_of_stored hstored hexpiration, ?_⟩
  change (Keychain.restore v _ w.2).1.refreshToken = _
  rw [hw]
  exact Keychain.restore_stow hk hissued rfl rfl

end

/-- A token that is renewed for a sync is kept with the snapshot: read back, it is the new one if the
sync succeeds. If it fails, nothing was stored, and what is read back is the old one, unless the new one
was stowed already for a snapshot that cannot be stored. -/
theorem renewed_token_is_kept_with_snapshot (y : Syncer ω) {v : Vault σ}
    {held : σ → String → Option String} {c : Scene (ω × Keychain σ)} {u : ω × Keychain σ}
    (hc : c.database.Reachable) (hk : c.world.2.Faithful v held)
    (h : (y.withKeychain v).Renews id c old new u) (hissued : new.refreshToken ≠ "")
    (hreadable : ∃ e, Instant.read? new.expiration.secondsText = some e) :
    (∀ data c', (y.withKeychain v).refresh id c = (.ok data, c') →
      (y.withKeychain v).Carries id new.refreshToken c') ∧
    ∀ e c', (y.withKeychain v).refresh id c = (.error e, c') →
      c'.database = c.database ∧ ((y.withKeychain v).Carries id old.refreshToken c' ∨
        ∃ s : Snapshot, ¬s.Fits id c.database ∧ e = .failed (.store (s.overflow id c.database))) := by
  have hku : u.2.Faithful v held := by
    obtain ⟨row, -, hold⟩ := h.keychain_eq
    rw [(Prod.mk.inj hold).2]
    exact hk.restore row
  have hw := (y.withKeychain v).fetchAndStore_eq new id ⟨u, c.database⟩
  rw [h.refresh_eq hc.sound, refreshWith]
  have hkeep := Snapshot.keeps_fetch (y.keeps_ask_withKeychain v (k := u.2)) new.accessToken id u rfl
  rcases hr : Snapshot.fetch (y.withKeychain v).ask new.accessToken id u with ⟨e | s, w⟩
  · rw [hr] at hw hkeep
    rw [limited_of_error _ hw]
    refine ⟨fun _ _ hok => (by cases hok), ?_⟩
    rintro _ _ ⟨⟩
    exact ⟨rfl, .inl (h.carries_old hk hkeep)⟩
  · rw [hr] at hw hkeep
    dsimp only at hw hkeep
    have howner : ((y.withKeychain v).stow (new.forCharacter id) w).1.characterId = id :=
      y.owner_withKeychain v _ w
    generalize hstow : (y.withKeychain v).stow (new.forCharacter id) w = p at hw howner
    by_cases hfits : s.Fits id c.database
    · rw [keep_eq _ hc.sound p.2 s howner hfits] at hw
      obtain ⟨w', names, hnames, hsame⟩ := y.resolveNames_withKeychain v
        ((s.data id).skills.map (·.skillId)) p.2
        (s.settled ((y.withKeychain v).now p.2) id p.1 c.database)
      rw [limited_of_ok _ id hw, hnames]
      refine ⟨?_, fun _ _ herror => (by cases herror)⟩
      rintro _ _ ⟨⟩
      subst hstow
      exact carries_settled (hkeep ▸ hku) hissued hreadable s _ c.database names hsame
    · rw [keep_refused _ hc.sound p.2 s howner hfits] at hw
      rw [limited_of_error _ hw]
      refine ⟨fun _ _ hok => (by cases hok), ?_⟩
      rintro _ _ ⟨⟩
      exact ⟨rfl, .inr ⟨s, hfits, rfl⟩⟩

def staleToken : Token := ⟨"access", "refresh", "Bearer", ⟨1030, 0⟩⟩

def rotatedToken : Token := ⟨"access", "rotated", "Bearer", ⟨2000, 0⟩⟩

def watch : Store.Action Unit := do
  Store.putCorporation ⟨500, none, "Caldari Navy", "CN", ""⟩
  Store.putCharacter ⟨0, 0⟩ ⟨1, "Ada", "", 500⟩
  Store.putCharacter ⟨0, 0⟩ ⟨3, "Cara", "", 500⟩
  Store.putToken (staleToken.forCharacter 1)
  Store.putToken (staleToken.forCharacter 3)

def watchScene : Scene (Unit × Keychain (Table String String)) :=
  ⟨((), ⟨false, .empty⟩), (Database.run watch .fresh).2⟩

theorem operation_watch : Store.Operation watch :=
  .next (.putCorporation _) fun _ => .next (.putCharacter ..) fun _ => .next (.putCharacter ..) fun _ =>
    .next (.putToken _) fun _ => .putToken _

theorem reachable_watch : watchScene.database.Reachable := .run .fresh operation_watch

theorem faithful_watch : watchScene.world.2.Faithful .memory fun s key => s.get? key :=
  .inr Vault.truthful_memory

theorem token?_watch (id : Int) (h : (watchScene.database.store.characters.get? id).bind (·.token) =
    some (Store.stored (staleToken.forCharacter id))) :
    watchScene.database.store.token? id = .ok (some (staleToken.forCharacter id)) := by
  have hread : Instant.read? (⟨1030, 0⟩ : Instant).secondsText = some ⟨1030, 0⟩ := by decide +kernel
  exact Store.token?_of_stored h hread

theorem renews_watch {id : Int} (h : (watchScene.database.store.characters.get? id).bind (·.token) =
    some (Store.stored (staleToken.forCharacter id))) :
    (registry.withKeychain .memory).Renews id watchScene (staleToken.forCharacter id) rotatedToken
      watchScene.world :=
  ⟨_, _, token?_watch id h, rfl, rfl, rfl⟩

theorem readable_rotatedToken : ∃ e, Instant.read? rotatedToken.expiration.secondsText = some e :=
  ⟨⟨2000, 0⟩, by decide +kernel⟩

theorem watch_keeps_one_renewed_token :
    let y := registry.withKeychain .memory
    watchScene.database.Reachable ∧ watchScene.world.2.Faithful .memory (fun s key => s.get? key) ∧
      y.Renews 1 watchScene (staleToken.forCharacter 1) rotatedToken watchScene.world ∧
      y.Renews 3 watchScene (staleToken.forCharacter 3) rotatedToken watchScene.world ∧
      y.Carries 1 "rotated" (y.refresh 1 watchScene).2 ∧
      (y.refresh 3 watchScene).2.database = watchScene.database ∧
      y.Carries 3 "refresh" (y.refresh 3 watchScene).2 := by
  intro y
  have hone : y.Renews 1 watchScene (staleToken.forCharacter 1) rotatedToken watchScene.world :=
    renews_watch rfl
  have hthree : y.Renews 3 watchScene (staleToken.forCharacter 3) rotatedToken watchScene.world :=
    renews_watch rfl
  obtain ⟨hkept, -⟩ := renewed_token_is_kept_with_snapshot registry reachable_watch faithful_watch hone
    (by decide) readable_rotatedToken
  obtain ⟨-, hlost⟩ := renewed_token_is_kept_with_snapshot registry reachable_watch faithful_watch hthree
    (by decide) readable_rotatedToken
  obtain ⟨data, hok⟩ : ∃ data, (y.refresh 1 watchScene).1 = .ok data := by
    rw [hone.refresh_eq reachable_watch.sound]
    exact ⟨⟨⟨1, "Pilot", "", 500⟩, ⟨500, none, "Caldari Navy", "CN", ""⟩, none, [⟨1, 3300, 5⟩]⟩,
      eq_ok_of_toOption (by decide +kernel)⟩
  have herror : (y.refresh 3 watchScene).1 = .error (.failed missingIcons) := by
    rw [hthree.refresh_eq reachable_watch.sound]
    rfl
  refine ⟨reachable_watch, faithful_watch, hone, hthree, ?_⟩
  generalize y.refresh 1 watchScene = one at hkept hok ⊢
  generalize y.refresh 3 watchScene = three at hlost herror ⊢
  obtain ⟨_, c'⟩ := one
  obtain ⟨_, c''⟩ := three
  cases hok
  cases herror
  obtain ⟨hsame, hold | ⟨s, -, hstore⟩⟩ := hlost _ c'' rfl
  · exact ⟨hkept _ c' rfl, hsame, hold⟩
  · cases hstore

/-- The new token is not kept when the sync for which it was issued fails. -/
theorem failed_sync_drops_renewed_token :
    let y := registry.withKeychain .memory
    watchScene.database.Reachable ∧ watchScene.world.2.Faithful .memory (fun s key => s.get? key) ∧
      y.Renews 3 watchScene (staleToken.forCharacter 3) rotatedToken watchScene.world ∧
      rotatedToken.refreshToken ≠ "" ∧
      (y.refresh 3 watchScene).1 = .error (.failed missingIcons) ∧
      ¬y.Carries 3 rotatedToken.refreshToken (y.refresh 3 watchScene).2 := by
  intro y
  have hthree : y.Renews 3 watchScene (staleToken.forCharacter 3) rotatedToken watchScene.world :=
    renews_watch rfl
  have hrun : y.refresh 3 watchScene = (.error (.failed missingIcons), watchScene) := by
    rw [hthree.refresh_eq reachable_watch.sound]
    rfl
  refine ⟨reachable_watch, faithful_watch, hthree, by decide, by rw [hrun], ?_⟩
  rw [hrun]
  rintro ⟨row, hrow, hsecret⟩
  have hstale := token?_watch 3 rfl
  rw [hstale] at hrow
  cases hrow
  have hne : staleToken.refreshToken ≠ rotatedToken.refreshToken := by decide
  exact hne hsecret

end Syncer

end Muster
