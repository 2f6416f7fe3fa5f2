import Muster.Proofs.Exchange
import Muster.Proofs.SnapshotWriting
import Muster.Proofs.Soundness

/-! A sync stores the whole snapshot that its calls brought, or it tells of the first call that failed
and leaves the store as it was. -/

namespace Muster

variable {ω ε α : Type}

namespace Database

def named (d : Database) (names : Table Int String) : Database :=
  { d with store := { d.store with skillNames := names } }

def Renames (d e : Database) : Prop := ∃ names, e = d.named names

theorem renames_self (d : Database) : d.Renames d := ⟨d.store.skillNames, rfl⟩

end Database

namespace Snapshot

def settled (s : Snapshot) (now : Instant) (id : Int) (row : TokenRow) (d : Database) : Database :=
  { d with store := s.settle now id row d.store }

/-- The skills that a snapshot does not report are few enough to be dropped by one statement. -/
def Fits (s : Snapshot) (id : Int) (d : Database) : Prop :=
  Store.Droppable (d.store.skillTable id) s.skillIds

instance (s : Snapshot) (id : Int) (d : Database) : Decidable (s.Fits id d) :=
  inferInstanceAs (Decidable (Store.Droppable _ _))

def overflow (s : Snapshot) (id : Int) (d : Database) : StoreError :=
  Database.overflow Store.skillsStatement (d.store.skillTable id) s.skillIds

variable {d : Database} {P : Store → Prop} {id : Int} {row : TokenRow}

theorem store_eq (hd : d.Kept P) (s : Snapshot) (now : Instant) (hrow : row.characterId = id)
    (hfew : s.Fits id d) : s.store now id row d = (.ok (s.data id), s.settled now id row d) := by
  simp only [store, Database.atomically_eq _ hd.idle hd.whole, s.put_eq now id row _ hrow hfew, settled]

theorem store_refused (hd : d.Kept P) (s : Snapshot) (now : Instant) (hrow : row.characterId = id)
    (hmany : ¬s.Fits id d) : s.store now id row d = (.error (s.overflow id d), d) :=
  Database.atomically_refused hd.idle hd.whole (s.put_refused now id row _ hrow hmany)

end Snapshot

namespace Sync

variable {c : Scene ω} {P : Store → Prop}

theorem outside_eq (f : ε → SyncError) (w : Work ω ε α) (c : Scene ω) :
    outside f w c = match w c.world with
      | (.ok a, v) => (.ok a, ⟨v, c.database⟩)
      | (.error h, v) => (.error (h.map f), ⟨v, c.database⟩) := by
  rw [outside, Work.focus, Work.mapError]
  rcases w c.world with ⟨_ | _, v⟩ <;> rfl

theorem inside_of_unlocked (h : c.database.poisoned = false) (a : Database.Action α) :
    inside a c = match a c.database with
      | (.ok v, d) => (.ok v, ⟨c.world, d⟩)
      | (.error e, d) => (.error (.failed (.store e)), ⟨c.world, d⟩) := by
  rcases hr : a c.database with ⟨_ | _, d⟩ <;> simp only [inside, Database.locked_of_unlocked h, hr]

theorem inside_eq (h : c.database.Kept P) (a : Database.Action α) :
    inside a c = match a c.database with
      | (.ok v, d) => (.ok v, ⟨c.world, d⟩)
      | (.error e, d) => (.error (.failed (.store e)), ⟨c.world, d⟩) :=
  inside_of_unlocked h.unlocked a

end Sync

namespace Syncer

variable (y : Syncer ω)

section

variable {P : Store → Prop} {d : Database} {id : Int} {row : TokenRow}

theorem keep_eq (hd : d.Kept P) (w : ω) (s : Snapshot) (hrow : row.characterId = id)
    (hfew : s.Fits id d) :
    y.keep s id row ⟨w, d⟩ = (.ok (s.data id), ⟨w, s.settled (y.now w) id row d⟩) := by
  rw [keep, Sync.inside_eq (c := ⟨w, d⟩) hd, s.store_eq hd _ hrow hfew]

theorem keep_refused (hd : d.Kept P) (w : ω) (s : Snapshot) (hrow : row.characterId = id)
    (hmany : ¬s.Fits id d) :
    y.keep s id row ⟨w, d⟩ = (.error (.failed (.store (s.overflow id d))), ⟨w, d⟩) := by
  rw [keep, Sync.inside_eq (c := ⟨w, d⟩) hd, s.store_refused hd _ hrow hmany]

end

/-- What a sync tells of work that failed, or that would not end. -/
def told (id : Int) (f : ε → SyncError) : Halt ε → SyncError
  | .failed e => f e
  | .stalled => .timeout id y.limit

theorem limited_of_error {id : Int} {work : Sync ω CharacterData} {c c' : Scene ω} {h : Halt SyncError}
    (hw : work c = (.error h, c')) :
    y.limited id work c = (.error (.failed (y.told id (fun e => e) h)), c') := by
  have hlate : work.within (.timeout id y.limit) c =
      (.error (.failed (y.told id (fun e => e) h)), c') := by
    rw [Work.within, hw]
    cases h <;> rfl
  rw [limited, bind_of_error hlate]

theorem keeps_renames (d : Database) (skills : List Int) :
    Keeps (fun c : Scene ω => d.Renames c.database) (y.resolveNames skills) := by
  have hput (things : List SkillName) : Keeps d.Renames (Database.run (Store.putSkillNames things)) := by
    rintro _ ⟨names, rfl⟩
    exact ⟨_, rfl⟩
  exact .bind (Sync.keeps_inside (Database.keeps_look _)) fun _ => .ite (.pure 0)
    (.bind (Sync.keeps_outside _ _) fun _ => .bind (Sync.keeps_inside (hput _)) fun _ => .pure _)

theorem limited_congr {id : Int} {work work' : Sync ω CharacterData} {c v : Scene ω}
    (h : work c = work' v) : y.limited id work c = y.limited id work' v := by
  have hwithin : work.within (.timeout id y.limit) c = work'.within (.timeout id y.limit) v := by
    rw [Work.within, Work.within, h]
  rw [limited, limited]
  rcases hw : work'.within (.timeout id y.limit) v with ⟨_ | _, _⟩
  · rw [bind_of_error (hwithin.trans hw), bind_of_error hw]
  · rw [bind_of_ok (hwithin.trans hw), bind_of_ok hw]

theorem resolveNames_renames (skills : List Int) (c : Scene ω) :
    ∃ w names, (y.resolveNames skills c).2 = ⟨w, c.database.named names⟩ := by
  obtain ⟨names, hnames⟩ := y.keeps_renames c.database skills c c.database.renames_self
  exact ⟨(y.resolveNames skills c).2.world, names, by rw [← hnames]⟩

theorem limited_of_ok (id : Int) {work : Sync ω CharacterData} {c c' : Scene ω} {data : CharacterData}
    (hw : work c = (.ok data, c')) :
    y.limited id work c = (.ok data, (y.resolveNames (data.skills.map (·.skillId)) c').2) := by
  have hin : work.within (.timeout id y.limit) c = (.ok data, c') := by
    rw [Work.within, hw]
  have hcache : y.cacheNames data c' =
      (.ok (), (y.resolveNames (data.skills.map (·.skillId)) c').2) := rfl
  rw [limited, bind_of_ok hin, bind_of_ok hcache]
  rfl

/-- How a sync of a character with a token ends. All calls are answered, and what they brought is stored
in place of what there was, and then names of skills may be cached; or a call fails, of which the sync
tells; or the answers cannot be stored, which befalls a character with too many skills to drop. What is not
stored leaves the database as it was. A row that is not one of the character is not spoken of, as it is
stowed for another one. -/
inductive Ends (token : Token) (id : Int) (c : Scene ω) :
    Except (Halt SyncError) CharacterData × Scene ω → Prop
  | stored {s : Snapshot} {v w w' : ω} {row : TokenRow} {data : CharacterData} {t : Store}
    {names : Table Int String} :
    s.Coherent → Esi.Answered y.ask token.accessToken c.world (s.exchanges id) v →
    y.stow (token.forCharacter id) v = (row, w) →
    s.put (y.now w) id row c.database.store = (.ok data, t) →
    (row.characterId = id →
      data = s.data id ∧ s.Replaces (y.now w) id row.toToken c.database.store t) →
    Ends token id c (.ok data, ⟨w', { c.database with store := { t with skillNames := names } }⟩)
  | broken {s : Snapshot} {es rest : List Esi.Exchange} {call : Esi.Call} {x : call.Answer}
    {h : Halt EsiError} {w : ω} :
    s.Coherent → s.exchanges id = es ++ ⟨call, x⟩ :: rest →
    Esi.Broken y.ask token.accessToken c.world es call h w →
    Ends token id c (.error (.failed (y.told id .esi h)), ⟨w, c.database⟩)
  | refused {s : Snapshot} {v w : ω} {row : TokenRow} {e : StoreError} :
    s.Coherent → Esi.Answered y.ask token.accessToken c.world (s.exchanges id) v →
    y.stow (token.forCharacter id) v = (row, w) →
    (row.characterId = id → ¬s.Fits id c.database ∧ e = s.overflow id c.database) →
    Ends token id c (.error (.failed (.store e)), ⟨w, c.database⟩)

variable {y} {c : Scene ω} {P : Store → Prop}

theorem told_map (id : Int) (f : ε → SyncError) (h : Halt ε) :
    y.told id (fun e => e) (h.map f) = y.told id f h := by
  cases h <;> rfl

theorem fetchAndStore_eq (y : Syncer ω) (token : Token) (id : Int) (c : Scene ω) :
    y.fetchAndStore token id c =
      match Snapshot.fetch y.ask token.accessToken id c.world with
      | (.error h, v) => (.error (h.map .esi), ⟨v, c.database⟩)
      | (.ok s, v) => y.keep s id (y.stow (token.forCharacter id) v).1
        ⟨(y.stow (token.forCharacter id) v).2, c.database⟩ := by
  have hfetch := Sync.outside_eq .esi (Snapshot.fetch y.ask token.accessToken id) c
  rcases hr : Snapshot.fetch y.ask token.accessToken id c.world with ⟨h | s, v⟩
  · rw [hr] at hfetch
    rw [fetchAndStore, bind_of_error hfetch]
  · rw [hr] at hfetch
    have hstow : Sync.change (y.stow (token.forCharacter id)) ⟨v, c.database⟩ =
        (.ok (y.stow (token.forCharacter id) v).1, ⟨(y.stow (token.forCharacter id) v).2, c.database⟩) :=
      rfl
    rw [fetchAndStore, bind_of_ok hfetch, bind_of_ok hstow]

theorem ends_limited {token : Token} {id : Int} {work : Sync ω CharacterData} {c₀ : Scene ω}
    (hc : c.database.Kept P) (hw : work c₀ = y.fetchAndStore token id c) :
    y.Ends token id c (y.limited id work c₀) := by
  have hfetch := Snapshot.follows_fetch y.ask token.accessToken id c.world
  rw [fetchAndStore_eq] at hw
  rcases hr : Snapshot.fetch y.ask token.accessToken id c.world with ⟨h | s, v⟩
  · rw [hr] at hfetch hw
    obtain ⟨es, call, x, rest, s, ⟨hs, hes⟩, hbroken⟩ := hfetch
    rw [limited_of_error y hw, told_map]
    exact .broken hs hes.symm hbroken
  · rw [hr] at hfetch hw
    obtain ⟨es, ⟨hs, rfl⟩, hall⟩ := hfetch
    dsimp only at hw
    rcases hrow : y.stow (token.forCharacter id) v with ⟨row, w⟩
    rw [hrow, keep, Sync.inside_eq (c := ⟨w, c.database⟩) hc, Snapshot.store,
      Database.atomically_eq _ hc.idle hc.whole] at hw
    rcases hput : s.put (y.now w) id row c.database.store with ⟨e | data, t⟩
    · simp only [hput] at hw
      rw [limited_of_error y hw]
      refine .refused hs hall hrow fun hid => ?_
      obtain ⟨hok, -⟩ | ⟨hmany, herror⟩ := Snapshot.put_cases hid hput
      · cases hok
      · cases herror
        exact ⟨hmany, rfl⟩
    · simp only [hput] at hw
      obtain ⟨w', names, hnames⟩ := y.resolveNames_renames (data.skills.map (·.skillId))
        ⟨w, { c.database with store := t }⟩
      rw [limited_of_ok y id hw, hnames]
      refine .stored hs hall hrow hput fun hid => ?_
      obtain ⟨hok, hreplaces⟩ | ⟨-, herror⟩ := Snapshot.put_cases hid hput
      · cases hok
        exact ⟨rfl, hreplaces⟩
      · cases herror

/-- The stored token is restored, and renewed when it ends soon; nothing is stored. -/
theorem loadToken_eq (hc : c.database.Kept P) (id : Int) :
    y.loadToken id c = match c.database.store.token? id with
      | .error e => (.error (.failed (.store e)), c)
      | .ok none => (.error (.failed (.noToken id)), c)
      | .ok (some row) =>
        let (row, v) := y.restore row c.world
        if row.needsRefresh (y.now v) then
          match y.renew row.refreshToken v with
          | (.ok token, u) => (.ok token, ⟨u, c.database⟩)
          | (.error h, u) => (.error (h.map .auth), ⟨u, c.database⟩)
        else (.ok row.toToken, ⟨v, c.database⟩) := by
  have hlook := Sync.inside_eq hc (Database.run (Store.look fun t => t.token? id))
  rw [Database.run_look] at hlook
  rcases ht : c.database.store.token? id with e | _ | row
  · rw [ht] at hlook
    rw [loadToken, bind_of_error hlook]
  · rw [ht] at hlook
    rw [loadToken, bind_of_ok hlook]
    rfl
  · rw [ht] at hlook
    have hrestore : Sync.change (y.restore row) c =
        (.ok (y.restore row c.world).1, ⟨(y.restore row c.world).2, c.database⟩) := rfl
    have hnow : Sync.change (fun w => (y.now w, w)) ⟨(y.restore row c.world).2, c.database⟩ =
        (.ok (y.now (y.restore row c.world).2), ⟨(y.restore row c.world).2, c.database⟩) := rfl
    rw [loadToken, bind_of_ok hlook]
    dsimp only
    rw [bind_of_ok hrestore, bind_of_ok hnow]
    split
    · rw [Sync.outside_eq]
      dsimp only
      rcases y.renew (y.restore row c.world).1.refreshToken (y.restore row c.world).2 with ⟨_ | _, _⟩ <;>
        rfl
    · rfl

theorem database_loadToken (y : Syncer ω) (id : Int) (c : Scene ω) :
    (y.loadToken id c).2.database = c.database :=
  y.keeps_loadToken (P := fun d => d = c.database) id c rfl

/-- ESI knows of pilots in two corporations, of which the second is in an alliance without icons, and has
no names of skills. -/
def registry : Syncer Unit where
  ask _ call := match call with
    | .character 3 => pure ⟨"Cara", 501, none⟩
    | .character _ => pure ⟨"Pilot", 500, none⟩
    | .portrait _ => pure ⟨"", "", "", ""⟩
    | .corporation 501 => pure ⟨"Perkone", "PERK", some 99⟩
    | .corporation _ => pure ⟨"Caldari Navy", "CN", some 0⟩
    | .corporationIcons _ => pure ⟨"", "", ""⟩
    | .skills _ => pure ⟨[⟨3300, 4, 4, 0⟩, ⟨3300, 5, 5, 0⟩], 0⟩
    | .alliance _ => pure ⟨"Templis", "TMPL"⟩
    | .allianceIcons _ => Work.fail (.decode "/latest/alliances/99/icons/" "unexpected content")
    | .names _ => Work.fail (.http "no route to host")
    | .ids _ => pure ⟨[]⟩
  renew _ := pure ⟨"access", "rotated", "Bearer", ⟨2000, 0⟩⟩
  stow t w := (t, w)
  restore t w := (t, w)
  now _ := ⟨1000, 0⟩
  limit := .ofSeconds 30

def missingIcons : SyncError := .esi (.decode "/latest/alliances/99/icons/" "unexpected content")

def fleetToken : Token := ⟨"access", "refresh", "Bearer", ⟨2000, 0⟩⟩

def crew : Store.Action Unit := do
  Store.putAlliance ⟨7, "State", "STATE", ""⟩
  Store.putCorporation ⟨500, some 7, "Caldari", "C", "old.png"⟩
  Store.putCharacter ⟨0, 0⟩ ⟨1, "Ada", "old.png", 500⟩
  Store.putCharacter ⟨0, 0⟩ ⟨2, "Bea", "", 500⟩
  [CharacterSkill.mk 1 3300 1, .mk 1 3301 2, .mk 2 3301 3].forM Store.putSkill

theorem operation_crew : Store.Operation crew :=
  .next (.putAlliance _) fun _ => .next (.putCorporation _) fun _ => .next (.putCharacter ..) fun _ =>
    .next (.putCharacter ..) fun _ => .forM .putSkill _

end Syncer

end Muster
