import Muster.App.Request
import Muster.Proofs.Keeps
import Muster.Proofs.Operation

/-! Which databases the program can come to, and what holds of all of them. -/

namespace Muster

variable {ω α : Type}

inductive Syncer.Offers (y : Syncer ω) : {α : Type} → Sync ω α → Prop
  | refreshWith (token : Token) (id : Int) : Offers y (y.refreshWith token id)
  | refresh (id : Int) : Offers y (y.refresh id)
  | refreshAll : Offers y y.refreshAll
  | resolveNames (skills : List Int) : Offers y (y.resolveNames skills)
  | resolveIds (names : List String) : Offers y (y.resolveIds names)
  | resolveKnown : Offers y y.resolveKnown

inductive App.Offers (a : App ω) : {α : Type} → Command ω α → Prop
  | listCharacters : Offers a App.listCharacters
  | addCharacter (secret : Text.Bytes) (state : String) : Offers a (a.addCharacter secret state)
  | refreshCharacter (id : Int) : Offers a (a.refreshCharacter id)
  | refreshAll : Offers a a.refreshAll
  | deleteCharacter (id : Int) : Offers a (a.deleteCharacter id)
  | listTags : Offers a App.listTags
  | resolveSkills (text : String) : Offers a (a.resolveSkills text)
  | createTag (name : String) (color : Option Color) (text : String) :
    Offers a (a.createTag name color text)
  | updateTag (t : Tag) (text : String) : Offers a (a.updateTag t text)
  | deleteTag (id : Int) : Offers a (App.deleteTag id)
  | skillNames (skills : List Int) : Offers a (App.skillNames skills)
  | listRoles : Offers a App.listRoles
  | createRole (name label : String) (operator : Operator) (color : Option Color) (tags : List Int) :
    Offers a (a.createRole name label operator color tags)
  | updateRole (r : Role) (tags : List Int) : Offers a (App.updateRole r tags)
  | deleteRole (id : Int) : Offers a (App.deleteRole id)
  | characterMatches (id : Int) : Offers a (App.characterMatches id)
  | overview : Offers a App.overview
  | settings : Offers a App.settings
  | saveSettings {v : Settings} (h : v.Fits) : Offers a (App.saveSettings v)
  | chooseLevel (raw : String) : Offers a (App.chooseLevel raw)

/-- The databases that operations, syncs and commands make of a fresh one. -/
inductive Database.Reachable : Database → Prop
  | fresh : Reachable .fresh
  | run {α : Type} {a : Store.Action α} {d : Database} :
    Reachable d → Store.Operation a → Reachable (Database.run a d).2
  | atomically {α : Type} {a : Store.Action α} {d : Database} :
    Reachable d → Store.Operation a → Reachable (Database.atomically a d).2
  | sync {ω α : Type} {y : Syncer ω} {w : Sync ω α} {c : Scene ω} :
    Reachable c.database → y.Offers w → Reachable (w c).2.database
  | command {ω α : Type} {a : App ω} {c : Command ω α} {s : Session ω} :
    Reachable s.database → a.Offers c → Reachable (c s).2.database

structure Database.Invariant (P : Database → Prop) : Prop where
  run {α : Type} {a : Store.Action α} (h : Store.Operation a) : Keeps P (Database.run a)
  atomically {α : Type} {a : Store.Action α} (h : Store.Operation a) : Keeps P (Database.atomically a)

structure Database.SyncInvariant (P : Database → Prop) : Prop where
  look {α : Type} (f : Store → Except StoreError α) : Keeps P (Database.run (Store.look f))
  putSkillNames (names : List SkillName) : Keeps P (Database.run (Store.putSkillNames names))
  putSnapshot (s : Snapshot) (now : Instant) (id : Int) (token : TokenRow) :
    Keeps P (Database.atomically (s.put now id token))

/-- What a request does to the database, besides reading and syncing, keeps the property. -/
def App.Request.Spares (P : Database → Prop) : Request → Prop
  | .deleteCharacter id => Keeps P (Database.run (Store.dropCharacter id))
  | .createTag .. => ∀ name color rs, Keeps P (Database.atomically (Store.makeTag name color rs))
  | .updateTag t _ => ∀ rs, Keeps P (Database.atomically (Store.remakeTag t rs))
  | .deleteTag id => Keeps P (Database.run (dropSelectedTag id))
  | .createRole _ _ _ _ tags => ∀ r, Keeps P (Database.atomically (Store.makeRole r tags))
  | .updateRole r tags =>
    ∀ r' : Role, r'.id = r.id → Keeps P (Database.atomically (Store.remakeRole r' tags))
  | .deleteRole id => Keeps P (Database.run (dropSelectedRole id))
  | .saveSettings v => Keeps P (Database.run (Store.putSettings v.normalize))
  | .chooseLevel raw => Keeps P (Database.run (storeLevel (Level.read raw)))
  | _ => True

variable {P : Database → Prop}

theorem Database.Invariant.sync (h : Invariant P) : SyncInvariant P where
  look f := h.run (.look f)
  putSkillNames names := h.run (.putSkillNames names)
  putSnapshot s now id token := h.atomically (.putSnapshot s now id token)

theorem Database.run_look (f : Store → Except StoreError α) (d : Database) :
    run (Store.look f) d = (f d.store, d) := by
  rw [run, Store.look, get_bind_apply]
  cases f d.store <;> rfl

theorem Database.keeps_look (f : Store → Except StoreError α) : Keeps P (run (Store.look f)) := by
  intro d hd
  rw [run_look]
  exact hd

theorem Database.keeps_locked {a : Action α} (h : Keeps P a) : Keeps P (locked a) :=
  .bind (.bind .get fun _ => .ite (.throw _) (.pure _)) fun _ => h

namespace Sync

variable {ε : Type}

theorem keeps_outside (f : ε → SyncError) (w : Work ω ε α) :
    Keeps (fun c => P c.database) (outside f w) :=
  Work.keeps_focus (P := fun _ => True) (fun _ _ => trivial) (fun _ _ => trivial) fun _ _ h _ => h

theorem keeps_change (f : ω → α × ω) : Keeps (fun c : Scene ω => P c.database) (change f) :=
  fun _ h => h

theorem keeps_inside {a : Database.Action α} (h : Keeps P a) :
    Keeps (fun c : Scene ω => P c.database) (inside a) := by
  intro c hc
  have hd := Database.keeps_locked h c.database hc
  rw [inside]
  rcases hr : Database.locked a c.database with ⟨_ | _, d⟩ <;> simpa [hr] using hd

end Sync

namespace Syncer

theorem keeps_loadToken (y : Syncer ω) (id : Int) : Keeps (fun c => P c.database) (y.loadToken id) := by
  refine .bind (Sync.keeps_inside (Database.keeps_look _)) fun row => ?_
  cases row with
  | none => exact .throw _
  | some row =>
    exact .bind (Sync.keeps_change _) fun row => .bind (Sync.keeps_change _) fun _ =>
      .ite (Sync.keeps_outside _ _) (.pure _)

variable (hP : Database.SyncInvariant P) (y : Syncer ω)
include hP

theorem keeps_keep (s : Snapshot) (id : Int) (row : TokenRow) :
    Keeps (fun c => P c.database) (y.keep s id row) :=
  fun c hc => Sync.keeps_inside (hP.putSnapshot s (y.now c.world) id row) c hc

theorem keeps_fetchAndStore (token : Token) (id : Int) :
    Keeps (fun c => P c.database) (y.fetchAndStore token id) :=
  .bind (Sync.keeps_outside _ _) fun s => .bind (Sync.keeps_change _) fun row => y.keeps_keep hP s id row

theorem keeps_resolveNames (skills : List Int) : Keeps (fun c => P c.database) (y.resolveNames skills) :=
  .bind (Sync.keeps_inside (Database.keeps_look _)) fun _ =>
    .ite (.pure 0) (.bind (Sync.keeps_outside _ _) fun _ =>
      .bind (Sync.keeps_inside (hP.putSkillNames _)) fun _ => .pure _)

theorem keeps_resolveIds (names : List String) : Keeps (fun c => P c.database) (y.resolveIds names) :=
  .ite (.pure 0) (.bind (Sync.keeps_outside _ _) fun _ =>
    .bind (Sync.keeps_inside (hP.putSkillNames _)) fun _ => .pure _)

theorem keeps_resolveKnown : Keeps (fun c => P c.database) y.resolveKnown :=
  .bind (Sync.keeps_inside (.bind .get fun _ => .pure _)) fun skills => y.keeps_resolveNames hP skills

theorem keeps_limited {w : Sync ω CharacterData} (h : Keeps (fun c => P c.database) w) (id : Int) :
    Keeps (fun c => P c.database) (y.limited id w) :=
  .bind (Work.keeps_within h _) fun _ =>
    .bind (.bind (Work.keeps_outcome (y.keeps_resolveNames hP _)) fun _ => .pure _) fun _ => .pure _

theorem keeps_refreshWith (token : Token) (id : Int) :
    Keeps (fun c => P c.database) (y.refreshWith token id) :=
  y.keeps_limited hP (y.keeps_fetchAndStore hP token id) id

theorem keeps_refresh (id : Int) : Keeps (fun c => P c.database) (y.refresh id) :=
  y.keeps_limited hP (.bind (y.keeps_loadToken id) fun t => y.keeps_fetchAndStore hP t id) id

theorem keeps_refreshEach (ids : List Int) : Keeps (fun c => P c.database) (y.refreshEach ids) := by
  induction ids with
  | nil => exact .pure []
  | cons id ids ih =>
    exact .bind (Work.keeps_outcome (y.keeps_refresh hP id)) fun _ => .bind ih fun _ => .pure _

theorem keeps_refreshAll : Keeps (fun c => P c.database) y.refreshAll := by
  refine .bind (Sync.keeps_inside (.bind .get fun _ => .pure _)) fun ids =>
    .bind (y.keeps_refreshEach hP ids) fun rs => ?_
  split
  · exact .pure _
  · exact .throw _

theorem Offers.keeps {w : Sync ω α} (h : y.Offers w) : Keeps (fun c => P c.database) w := by
  cases h with
  | refreshWith token id => exact y.keeps_refreshWith hP token id
  | refresh id => exact y.keeps_refresh hP id
  | refreshAll => exact y.keeps_refreshAll hP
  | resolveNames skills => exact y.keeps_resolveNames hP skills
  | resolveIds names => exact y.keeps_resolveIds hP names
  | resolveKnown => exact y.keeps_resolveKnown hP

end Syncer

namespace Command

variable {ε : Type}

theorem keeps_inside (message : String) {a : Database.Action α} (h : Keeps P a) :
    Keeps (fun s : Session ω => P s.database) (inside message a) := by
  intro s hs
  have hd := Database.keeps_locked h s.database hs
  rw [inside]
  rcases hr : Database.locked a s.database with ⟨_ | _, d⟩ <;> simpa [hr] using hd

theorem keeps_sync (tell : SyncError → PublicError) {w : Sync ω α}
    (h : Keeps (fun c => P c.database) w) : Keeps (fun s => P s.database) (sync tell w) :=
  Work.keeps_focus (Work.keeps_mapError h _) (fun _ h => h) fun _ _ _ h => h

theorem keeps_login (message : String) (w : Work (Portal ω) AuthError α) :
    Keeps (fun s => P s.database) (login message w) :=
  Work.keeps_focus (P := fun _ => True) (fun _ _ => trivial) (fun _ _ => trivial) fun _ _ h _ => h

theorem keeps_change (f : ω → α × ω) : Keeps (fun s : Session ω => P s.database) (change f) :=
  fun _ h => h

theorem keeps_found (message : String) (a : Option α) :
    Keeps (fun s : Session ω => P s.database) (found message a) := by
  cases a with
  | none => exact .throw _
  | some a => exact .pure a

theorem keeps_required (field text : String) :
    Keeps (fun s : Session ω => P s.database) (required field text) :=
  .ite (.throw _) (.pure _)

end Command

namespace App

theorem keeps_chooseColor (a : App ω) (c : Option Color) :
    Keeps (fun s => P s.database) (a.chooseColor c) := by
  cases c with
  | none => exact Command.keeps_change _
  | some c => exact .pure c

variable (hP : Database.SyncInvariant P) (a : App ω)
include hP

theorem keeps_look (message : String) (f : Store → Except StoreError α) :
    Keeps (fun s : Session ω => P s.database) (Command.look message f) :=
  Command.keeps_inside message (hP.look f)

theorem keeps_readKnown (text : String) :
    Keeps (fun s : Session ω => P s.database) (readKnown text) := by
  refine .bind (keeps_look hP _ _) fun r => ?_
  cases r with
  | ok rs => exact .pure rs
  | error lines => exact .throw _

theorem keeps_resolveSkills (text : String) : Keeps (fun s => P s.database) (a.resolveSkills text) := by
  refine .bind (keeps_look hP _ _) fun unknown => .ite ?_ (keeps_readKnown hP text)
  exact .bind (Command.keeps_sync _ (Work.keeps_tried (a.syncer.keeps_resolveIds hP unknown))) fun _ =>
    keeps_readKnown hP text

theorem keeps_serve (q : Request) (hq : q.Spares P) : Keeps (fun s => P s.database) (a.serve q) := by
  cases q with
  | listCharacters | listTags | skillNames | listRoles | overview | settings =>
    exact keeps_look hP _ _
  | addCharacter secret state =>
    exact .bind (Command.keeps_login _ _) fun token => .bind (Command.keeps_login _ _) fun who =>
      Command.keeps_sync _ (a.syncer.keeps_refreshWith hP token who.characterId)
  | refreshCharacter id => exact Command.keeps_sync _ (a.syncer.keeps_refresh hP id)
  | refreshAll => exact Command.keeps_sync _ (a.syncer.keeps_refreshAll hP)
  | deleteCharacter id =>
    exact .bind (Command.keeps_inside _ hq) fun deleted =>
      .ite (.bind (Command.keeps_change _) fun _ => .pure deleted) (.pure deleted)
  | resolveSkills text => exact keeps_resolveSkills hP a text
  | createTag name color text =>
    exact .bind (Command.keeps_required _ _) fun name => .bind (keeps_resolveSkills hP a text) fun rs =>
      .bind (keeps_chooseColor a color) fun color => Command.keeps_inside _ (hq name color rs)
  | updateTag t text =>
    exact .bind (Command.keeps_required _ _) fun _ => .bind (keeps_resolveSkills hP a text) fun rs =>
      .bind (Command.keeps_inside _ (hq rs)) fun _ => Command.keeps_found _ _
  | deleteTag id => exact Command.keeps_inside _ hq
  | createRole name label operator color tags =>
    exact .bind (Command.keeps_required _ _) fun name => .bind (keeps_chooseColor a color) fun color =>
      Command.keeps_inside _ (hq _)
  | updateRole r tags =>
    exact .bind (Command.keeps_required _ _) fun name =>
      .bind (Command.keeps_inside _ (hq _ rfl)) fun _ => Command.keeps_found _ _
  | deleteRole id => exact Command.keeps_inside _ hq
  | characterMatches id => exact .bind (keeps_look hP _ _) fun _ => Command.keeps_found _ _
  | saveSettings v => exact .bind (Command.keeps_inside _ hq) fun _ _ h => h
  | chooseLevel raw => exact .bind (fun _ h => h) fun _ => Command.keeps_inside _ hq

omit hP in
theorem Offers.keeps (hP : Database.Invariant P) {c : Command ω α} (h : a.Offers c) :
    Keeps (fun s => P s.database) c := by
  have serve (q : Request) (hq : q.Spares P) := keeps_serve hP.sync a q hq
  cases h with
  | listCharacters => exact serve .listCharacters trivial
  | addCharacter secret state => exact serve (.addCharacter secret state) trivial
  | refreshCharacter id => exact serve (.refreshCharacter id) trivial
  | refreshAll => exact serve .refreshAll trivial
  | deleteCharacter id => exact serve (.deleteCharacter id) (hP.run (.dropCharacter id))
  | listTags => exact serve .listTags trivial
  | resolveSkills text => exact serve (.resolveSkills text) trivial
  | createTag name color text =>
    exact serve (.createTag name color text) fun _ _ _ => hP.atomically (.makeTag ..)
  | updateTag t text => exact serve (.updateTag t text) fun _ => hP.atomically (.remakeTag ..)
  | deleteTag id => exact serve (.deleteTag id) (hP.run (.dropSelectedTag id))
  | skillNames skills => exact serve (.skillNames skills) trivial
  | listRoles => exact serve .listRoles trivial
  | createRole name label operator color tags =>
    exact serve (.createRole name label operator color tags) fun _ => hP.atomically (.makeRole ..)
  | updateRole r tags => exact serve (.updateRole r tags) fun _ _ => hP.atomically (.remakeRole ..)
  | deleteRole id => exact serve (.deleteRole id) (hP.run (.dropSelectedRole id))
  | characterMatches id => exact serve (.characterMatches id) trivial
  | overview => exact serve .overview trivial
  | settings => exact serve .settings trivial
  | saveSettings hv => exact serve (.saveSettings _) (hP.run (.putSettings hv.normalize))
  | chooseLevel raw => exact serve (.chooseLevel raw) (hP.run (.storeLevel _))

end App

/-- What holds of a fresh database and is kept by operations holds of all that can be reached. -/
theorem Database.Reachable.induct {d : Database} (h : Reachable d) (hP : Invariant P)
    (hfresh : P .fresh) : P d := by
  induction h with
  | fresh => exact hfresh
  | run _ ha ih => exact hP.run ha _ ih
  | atomically _ ha ih => exact hP.atomically ha _ ih
  | sync _ hw ih => exact Syncer.Offers.keeps hP.sync _ hw _ ih
  | command _ hc ih => exact App.Offers.keeps _ hP hc _ ih

namespace App

def offline : App Unit where
  config := .initial
  address := ⟨[127, 0, 0, 1], 0⟩
  signOn := .ofConfig .initial
  services :=
    { gateway := ⟨Http.unreachable, fun _ p => (.error "no browser", p), fun _ => ⟨0, 0⟩⟩
      ask := fun _ _ => Work.fail (.http "no route to host")
      stow := fun t w => (t, w)
      restore := fun t w => (t, w)
      forget := fun _ w => w
      color := fun w => (.rgb 0 0 0, w) }

def offlineAfter (qs : List Request) : Session Unit :=
  qs.foldl (fun s q => (offline.serve q s).2) ⟨⟨.empty, none, ()⟩, .fresh, .info⟩

end App

end Muster
