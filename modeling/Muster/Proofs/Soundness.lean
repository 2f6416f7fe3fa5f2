import Muster.Proofs.Reachable
import Muster.Proofs.TagWriting
import Muster.Proofs.Transaction

/-! In every database that can be reached, no transaction is left open, references lead to rows, and
what is kept as text can be read. -/

namespace Muster

/-- Every reference leads to a row, and every text that is kept for a value was written for one. -/
structure Store.Sound (s : Store) : Prop where
  corporations : s.corporations.All fun _ row => ∀ id ∈ row.allianceId, s.alliances.contains id = true
  characters : s.characters.All fun _ row => s.corporations.contains row.corporationId = true
  tags : s.tags.All fun _ row => ∃ c : Color, row.color = c.toHex
  roles : s.roles.All fun _ row =>
    (∃ op : Operator, row.operator = op.name) ∧ (∃ c : Color, row.color = c.toHex) ∧
      ∀ tag, row.links.contains tag = true → s.tags.contains tag = true
  settings : ∀ text ∈ s.settings.get? settingsKey, ∃ v : Settings, v.Fits ∧ text = v.write

namespace Store

theorem sound_empty : Sound .empty := by
  constructor <;> intro k <;> simp [empty]

theorem keeps_guarded {P : Store → Prop} {found : Store → Bool} {f : Store → Store}
    (h : ∀ s, P s → found s = true → P (f s)) :
    Keeps P (do needsRow (found (← get)); modify f : Action Unit) := by
  intro s hs
  rw [get_bind_apply]
  cases hf : found s with
  | true => exact h s hs hf
  | false => exact hs

theorem Sound.changeCharacter {s : Store} (h : s.Sound) (id : Int) {f : CharacterRow → CharacterRow}
    (hf : ∀ row, (f row).corporationId = row.corporationId) :
    Sound { s with characters := s.characters.adjust id f } :=
  { h with characters := h.characters.adjust id fun row hrow => (hf row).symm ▸ hrow }

theorem Sound.changeTag {s : Store} (h : s.Sound) (id : Int) {f : TagRow → TagRow}
    (hf : ∀ row, (∃ c : Color, row.color = c.toHex) → ∃ c : Color, (f row).color = c.toHex) :
    Sound { s with tags := s.tags.adjust id f } :=
  { h with
    tags := h.tags.adjust id hf
    roles := by simpa using h.roles }

theorem Sound.changeRole {s : Store} (h : s.Sound) (id : Int) {f : RoleRow → RoleRow}
    (hf : ∀ row,
      ((∃ op : Operator, row.operator = op.name) ∧ (∃ c : Color, row.color = c.toHex) ∧
        ∀ tag, row.links.contains tag = true → s.tags.contains tag = true) →
      (∃ op : Operator, (f row).operator = op.name) ∧ (∃ c : Color, (f row).color = c.toHex) ∧
        ∀ tag, (f row).links.contains tag = true → s.tags.contains tag = true) :
    Sound { s with roles := s.roles.adjust id f } :=
  { h with roles := h.roles.adjust id hf }

theorem keeps_putAlliance (a : Alliance) : Keeps Sound (putAlliance a) := by
  refine .modify fun s h => { h with corporations := h.corporations.imp fun _ row hrow id hid => ?_ }
  simp [hrow id hid]

theorem keeps_putCorporation (c : Corporation) : Keeps Sound (putCorporation c) := by
  refine keeps_guarded fun s h hc => { h with
    corporations := h.corporations.insert fun id hid => ?_
    characters := h.characters.imp fun _ row hrow => by simp [hrow] }
  have hid : c.allianceId = some id := hid
  rw [hid] at hc
  exact hc

theorem keeps_putCharacter (now : Instant) (c : Character) : Keeps Sound (putCharacter now c) := by
  refine keeps_guarded fun s h hc => { h with characters := h.characters.insert ?_ }
  cases s.characters.get? c.id <;> simpa using hc

theorem keeps_putSkill (k : CharacterSkill) : Keeps Sound (putSkill k) :=
  keeps_guarded fun _ h _ => h.changeCharacter k.characterId fun _ => rfl

theorem keeps_dropSkills (id : Int) (skills : List Int) : Keeps Sound (dropSkills id skills) :=
  keeps_dropKeys (.modify fun _ h => h.changeCharacter id fun _ => rfl)

theorem keeps_dropCharacter (id : Int) : Keeps Sound (dropCharacter id) :=
  .bind .get fun _ => .bind (.modify fun _ h => { h with characters := h.characters.erase id })
    fun _ => .pure _

theorem keeps_putToken (t : TokenRow) : Keeps Sound (putToken t) :=
  keeps_guarded fun _ h _ => h.changeCharacter t.characterId fun _ => rfl

theorem keeps_addTag (name : String) (color : Color) : Keeps Sound (addTag name color) := by
  refine .bind (.bind .get fun t => .bind (.modify fun s h => ?_) fun _ => .pure _) fun _ => .pure _
  exact { h with
    tags := h.tags.insert ⟨color, rfl⟩
    roles := h.roles.imp fun _ row ⟨hop, hc, hl⟩ => ⟨hop, hc, fun tag ht => by simp [hl tag ht]⟩ }

theorem keeps_updateTag (t : Tag) : Keeps Sound (updateTag t) :=
  .bind (.modify fun _ h => h.changeTag t.id fun _ _ => ⟨t.color, rfl⟩) fun _ => .bind .get fun _ =>
    .pure _

theorem keeps_dropTag (id : Int) : Keeps Sound (dropTag id) := by
  refine .bind .get fun _ => .bind (.modify fun s h => ?_) fun _ => .pure _
  exact { h with
    tags := h.tags.erase id
    roles := h.roles.map fun _ row ⟨hop, hc, hl⟩ => ⟨hop, hc, fun tag ht => by
      rw [Table.contains_erase, Bool.and_eq_true] at ht ⊢
      exact ⟨ht.1, hl tag ht.2⟩⟩ }

theorem keeps_putTagSkill (k : TagSkill) : Keeps Sound (putTagSkill k) :=
  keeps_guarded fun _ h _ => h.changeTag k.tagId fun _ hc => hc

theorem keeps_dropTagSkills (id : Int) (skills : List Int) : Keeps Sound (dropTagSkills id skills) :=
  keeps_dropKeys (.modify fun _ h => h.changeTag id fun _ hc => hc)

theorem keeps_addRole (r : NewRole) : Keeps Sound (addRole r) := by
  have hrest : Keeps Sound (do
      let id := (← get).lastRole + 1
      modify fun s => { s with
        lastRole := id
        roles := s.roles.insert id ⟨r.name, r.label, r.operator.name, r.color.toHex, .empty⟩ }
      return id : Action Int) := by
    refine .bind .get fun t => .bind (.modify fun s h => ?_) fun _ => .pure _
    exact { h with roles := h.roles.insert ⟨⟨r.operator, rfl⟩, ⟨r.color, rfl⟩, fun tag ht => by cases ht⟩ }
  exact .bind (.ite (.bind (.throw _) fun _ => hrest) hrest) fun _ => .pure _

theorem keeps_updateRole (r : Role) : Keeps Sound (updateRole r) :=
  .bind (.modify fun _ h => h.changeRole r.id fun _ ⟨_, _, hl⟩ => ⟨⟨r.operator, rfl⟩, ⟨r.color, rfl⟩, hl⟩)
    fun _ => .bind .get fun _ => .pure _

theorem keeps_dropRole (id : Int) : Keeps Sound (dropRole id) :=
  .bind .get fun _ => .bind (.modify fun _ h => { h with roles := h.roles.erase id }) fun _ => .pure _

theorem keeps_putRoleTag (l : RoleTag) : Keeps Sound (putRoleTag l) := by
  refine keeps_guarded fun s h hl => h.changeRole l.roleId fun row ⟨hop, hc, ht⟩ => ⟨hop, hc, ?_⟩
  intro tag htag
  rw [Table.contains_insert, Bool.or_eq_true, decide_eq_true_iff] at htag
  obtain rfl | htag := htag
  · exact (Bool.and_eq_true_iff.1 hl).2
  · exact ht tag htag

theorem keeps_dropRoleTags (id : Int) (tags : List Int) : Keeps Sound (dropRoleTags id tags) :=
  keeps_dropKeys (.modify fun _ h => h.changeRole id fun _ ⟨hop, hc, hl⟩ =>
    ⟨hop, hc, fun tag ht => hl tag (Table.contains_of_filter ht)⟩)

theorem keeps_putSettings {v : Settings} (hv : v.Fits) : Keeps Sound (putSettings v) := by
  refine .modify fun s h => { h with settings := fun text ht => ⟨v, hv, ?_⟩ }
  simpa using ht.symm

theorem Operation.keeps_sound {α : Type} {a : Action α} (h : Operation a) : Keeps Sound a := by
  induction h with
  | done a => exact .pure a
  | refuse e => exact .throw e
  | next _ _ iha ihf => exact .bind iha ihf
  | read => exact .get
  | putAlliance a => exact keeps_putAlliance a
  | putCorporation c => exact keeps_putCorporation c
  | putCharacter now c => exact keeps_putCharacter now c
  | putSkill k => exact keeps_putSkill k
  | dropSkills id skills => exact keeps_dropSkills id skills
  | dropCharacter id => exact keeps_dropCharacter id
  | putToken t => exact keeps_putToken t
  | addTag name color => exact keeps_addTag name color
  | updateTag t => exact keeps_updateTag t
  | dropTag id => exact keeps_dropTag id
  | putTagSkill k => exact keeps_putTagSkill k
  | dropTagSkills id skills => exact keeps_dropTagSkills id skills
  | addRole r => exact keeps_addRole r
  | updateRole r => exact keeps_updateRole r
  | dropRole id => exact keeps_dropRole id
  | putRoleTag l => exact keeps_putRoleTag l
  | dropRoleTags id tags => exact keeps_dropRoleTags id tags
  | putSkillNames names => exact .modify fun _ h => { h with }
  | putSettings hv => exact keeps_putSettings hv

end Store

namespace Database

/-- Nothing waits for a commit, the lock is sound, and something holds of the store. -/
structure Kept (P : Store → Prop) (d : Database) : Prop where
  idle : d.undo = none
  whole : d.broken = false
  unlocked : d.poisoned = false
  store : P d.store

variable {α : Type} {P : Store → Prop} {d : Database}

def bodyOf (a : Store.Action α) : Body Unit α := fun _ d =>
  ((a d.store).1, (), { d with store := (a d.store).2 })

theorem atomically_eq_transact (a : Store.Action α) (d : Database) :
    atomically a d = ((transact usualAttempts (bodyOf a) () d).1,
      (transact usualAttempts (bodyOf a) () d).2.2) := rfl

/-- A transaction over the store is done as a whole, or fails the same way each time it is tried. -/
theorem atomically_eq (a : Store.Action α) (ho : d.undo = none) (hb : d.broken = false) :
    atomically a d =
      match a d.store with
      | (.ok v, s) => (.ok v, { d with store := s })
      | (.error e, _) =>
        (.error (.exhausted (List.replicate (if e.isRetryable then usualAttempts else 1) e)), d) := by
  have hc : Confined (bodyOf a) := fun _ _ => ⟨rfl, rfl⟩
  have hv : d.Valid := fun _ => hb
  rw [atomically_eq_transact, transact, usualAttempts]
  rcases hr : a d.store with ⟨e | v, s⟩
  · have he : (bodyOf a () d.opened).1 = .error e := congrArg Prod.fst hr
    cases hk : e.isRetryable with
    | true =>
      rw [attempt_of_error hc hv ho he hk, attempt_of_error hc hv ho he hk,
        attempt_of_last_error hc hv ho he 0 (.inl rfl)]
      simp [hk, List.replicate]
    | false =>
      rw [attempt_of_last_error hc hv ho he _ (.inr hk)]
      simp [hk]
  · have hok : (bodyOf a () d.opened).1 = .ok v := congrArg Prod.fst hr
    have hd : { (bodyOf a () d.opened).2.2 with undo := none } = { d with store := s } := by
      simp [bodyOf, opened, hr, ho]
    rw [attempt_of_ok hc hv ho hok, if_neg (by simp [bodyOf, opened, hb]), hd]

/-- The end of a transaction that is to drop more keys than one statement can name: each attempt is refused. -/
def overflow (head : String) (t : Table Int Int) (keys : List Int) : StoreError :=
  .exhausted (List.replicate usualAttempts (Store.refusal head (Store.stale t keys).length 1))

theorem atomically_refused {a : Store.Action α} {head : String} {t : Table Int Int} {keys : List Int}
    (ho : d.undo = none) (hb : d.broken = false)
    (ha : ∃ s, a d.store = (.error (Store.refusal head (Store.stale t keys).length 1), s)) :
    atomically a d = (.error (overflow head t keys), d) := by
  obtain ⟨s, ha⟩ := ha
  rw [atomically_eq a ho hb, ha]
  rfl

/-- What an attempt on an idle database leaves. When all attempts fail, it is the database as it was. -/
theorem attempt_bodyOf (a : Store.Action α) (more : Nat) (errors : List StoreError)
    (ho : d.undo = none) :
    attempt (bodyOf a) more errors () d =
      match a d.store with
      | (.ok v, s) =>
        if d.broken then (.error (.engine .foreignKey), (), { d with broken := false })
        else (.ok v, (), { d with store := s })
      | (.error e, _) =>
        match more, e.isRetryable with
        | more + 1, true => attempt (bodyOf a) more (errors ++ [e]) () { d with broken := false }
        | _, _ => (.error (.exhausted (errors ++ [e])), (), { d with broken := false }) := by
  obtain ⟨store, undo, broken, poisoned⟩ := d
  cases ho
  rw [attempt, begin_eq_opened rfl]
  dsimp only
  rcases hr : a store with ⟨e | v, s⟩
  · have hbody : bodyOf a () (opened ⟨store, none, broken, poisoned⟩) =
        (.error e, (), ⟨s, some store, broken, poisoned⟩) := by
      simp [bodyOf, opened, hr]
    rw [hbody]
    rfl
  · have hbody : bodyOf a () (opened ⟨store, none, broken, poisoned⟩) =
        (.ok v, (), ⟨s, some store, broken, poisoned⟩) := by
      simp [bodyOf, opened, hr]
    rw [hbody]
    cases broken <;> rfl

theorem keeps_store_attempt {a : Store.Action α} (h : Keeps P a) (more : Nat) (errors : List StoreError)
    (ho : d.undo = none) (hd : P d.store) : P (attempt (bodyOf a) more errors () d).2.2.store := by
  have hs := h d.store hd
  rcases hr : a d.store with ⟨e | v, s⟩
  · clear hs
    induction more generalizing errors d with
    | zero =>
      rw [attempt_bodyOf a _ _ ho, hr]
      exact hd
    | succ more ih =>
      rw [attempt_bodyOf a _ _ ho, hr]
      dsimp only
      cases e.isRetryable with
      | true => exact ih (errors ++ [e]) (d := { d with broken := false }) ho hd hr
      | false => exact hd
  · rw [hr] at hs
    rw [attempt_bodyOf a _ _ ho, hr]
    dsimp only
    split
    · exact hd
    · exact hs

theorem keeps_store_atomically {a : Store.Action α} (h : Keeps P a) :
    Keeps (fun d => P d.store) (atomically a) := by
  intro d hd
  rw [atomically_eq_transact]
  by_cases ho : d.undo = none
  · exact keeps_store_attempt h _ _ ho hd
  · rw [transact_of_open usualAttempts (bodyOf a) () ho]
    exact hd

theorem Kept.of_store {Q : Store → Prop} (h : d.Kept P) {s : Store} (hs : Q s) :
    Kept Q { d with store := s } :=
  { h with store := hs }

theorem Kept.imp {Q : Store → Prop} (h : d.Kept P) (hPQ : ∀ s, P s → Q s) : d.Kept Q :=
  h.of_store (hPQ _ h.store)

theorem locked_of_unlocked (h : d.poisoned = false) (a : Action α) : locked a d = a d := by
  have hlock : lock d = (.ok (), d) := by
    rw [lock, get_bind_apply, h]
    rfl
  rw [locked, bind_of_ok hlock]

theorem locked_of_poisoned (h : d.poisoned = true) (a : Action α) :
    locked a d = (.error .poisoned, d) := by
  have hlock : lock d = (.error .poisoned, d) := by
    rw [lock, get_bind_apply, h]
    rfl
  rw [locked, bind_of_error hlock]

theorem Kept.locked_eq (h : d.Kept P) (a : Action α) : locked a d = a d :=
  locked_of_unlocked h.unlocked a

theorem keeps_run {a : Store.Action α} (h : Keeps P a) : Keeps (Kept P) (run a) :=
  fun d hd => hd.of_store (h d.store hd.store)

theorem keeps_atomically {a : Store.Action α}
    (h : ∀ s v t, P s → a s = (.ok v, t) → P t) : Keeps (Kept P) (atomically a) := by
  intro d hd
  rw [atomically_eq a hd.idle hd.whole]
  rcases hr : a d.store with ⟨e | v, t⟩
  · exact hd
  · exact hd.of_store (h d.store v t hd.store hr)

theorem atomically_eq_ok {d' : Database} (h : d.Kept P) {a : Store.Action α} {v : α}
    (ha : atomically a d = (.ok v, d')) : a d.store = (.ok v, d'.store) := by
  rw [atomically_eq a h.idle h.whole] at ha
  rcases hr : a d.store with ⟨e | w, t⟩
  · rw [hr] at ha
    cases ha
  · rw [hr] at ha
    cases ha
    rfl

theorem invariant_kept
    (h : ∀ {α : Type} {a : Store.Action α}, Store.Operation a → Keeps P a) : Invariant (Kept P) where
  run ha := keeps_run (h ha)
  atomically ha := keeps_atomically fun _ _ _ hs hr => (h ha).of_run hr hs

/-- In every reachable database the store is sound and no transaction is open. -/
theorem Reachable.sound (h : Reachable d) : Kept Store.Sound d :=
  h.induct (invariant_kept Store.Operation.keeps_sound) ⟨rfl, rfl, rfl, Store.sound_empty⟩

end Database

namespace App

variable {ω α : Type}

/-- A transaction of a command fails and leaves all as it was, or is done as a whole. -/
theorem inside_cases {P : Store → Prop} {s : Session ω} (hs : s.database.Kept P) (message : String)
    (c : Store.Action α) :
    (∃ e, Command.inside message (Database.atomically c) s = (.error e, s)) ∨
      ∃ v t, c s.database.store = (.ok v, t) ∧
        Command.inside message (Database.atomically c) s =
          (.ok v, { s with database := { s.database with store := t } }) := by
  rw [Command.inside, hs.locked_eq, Database.atomically_eq c hs.idle hs.whole]
  rcases hc : c s.database.store with ⟨e | v, t⟩
  · exact .inl ⟨_, rfl⟩
  · exact .inr ⟨v, t, rfl, rfl⟩

theorem brings_inside {P : Store → Prop} {R : Except (Halt PublicError) α → Store → Prop} {message : String}
    {c : Store.Action α} (herror : ∀ e s, P s → R (.error e) s)
    (hdone : ∀ s v t, P s → c s = (.ok v, t) → R (.ok v) t) :
    Brings (fun s : Session ω => s.database.Kept P) (fun r s => s.database.Kept (R r))
      (Command.inside message (Database.atomically c)) := by
  intro s hs
  obtain ⟨e, h⟩ | ⟨v, t, hc, h⟩ := inside_cases hs message c
  · rw [h]
    exact hs.of_store (herror e _ hs.store)
  · rw [h]
    exact hs.of_store (hdone _ v t hs.store hc)

theorem inside_eq_ok {P : Store → Prop} {s s' : Session ω} (hs : s.database.Kept P) {message : String}
    {c : Store.Action α} {v : α}
    (h : Command.inside message (Database.atomically c) s = (.ok v, s')) :
    c s.database.store = (.ok v, s'.database.store) := by
  obtain ⟨e, hfailed⟩ | ⟨w, t, hc, hdone⟩ := inside_cases hs message c
  · cases hfailed.symm.trans h
  · cases hdone.symm.trans h
    exact hc

variable {s s' : Session ω}

theorem required_eq_ok {field text name : String}
    (h : Command.required field text s = (.ok name, s')) : name = Text.trim text ∧ s' = s := by
  rw [Command.required] at h
  split at h
  · cases h
  · cases h
    exact ⟨rfl, rfl⟩

theorem found_eq_ok {message : String} {found : Option α} {v : α}
    (h : Command.found message found s = (.ok v, s')) : found = some v ∧ s' = s := by
  cases found with
  | none => cases h
  | some v =>
    cases h
    exact ⟨rfl, rfl⟩

theorem chooseColor_eq_ok {a : App ω} {color : Option Color} {c : Color}
    (h : a.chooseColor color s = (.ok c, s')) : color.getD c = c ∧ s'.database = s.database := by
  cases color <;> cases h <;> exact ⟨rfl, rfl⟩

theorem brings_chooseColor {P : Database → Prop} {R : Except (Halt PublicError) α → Session ω → Prop}
    (a : App ω) (color : Option Color) {f : Color → Command ω α}
    (hf : ∀ c, color.getD c = c → Brings (fun s => P s.database) R (f c)) :
    Brings (fun s => P s.database) R (a.chooseColor color >>= f) := by
  intro s hs
  cases color with
  | none => exact hf _ rfl _ hs
  | some c => exact hf c rfl _ hs

end App

end Muster
