import Muster.Proofs.Interleaving
import Muster.Proofs.SyncOutcome

/-! A sync in steps is the sync when nothing comes between its steps; and when all outside answers alike
at all times, what comes of it does not depend on what comes between. -/

namespace Muster

variable {ω α β : Type}

namespace Stepwise

def whole (w : Stepwise ω α) : Sync ω α := fun c => Strand.run (ExceptT.run w) c

theorem whole_bind (w : Stepwise ω α) (f : α → Stepwise ω β) :
    (w >>= f).whole = w.whole >>= fun a => (f a).whole := by
  funext c
  have hbind : (w >>= f).whole c = (Strand.bind w (ExceptT.bindCont f)).run c := rfl
  rw [hbind, Strand.run_bind]
  rcases hw : Strand.run w c with ⟨_ | a, v⟩
  · exact (bind_of_error hw).symm
  · exact (bind_of_ok (f := fun a => (f a).whole) hw).symm

theorem whole_within (late : SyncError) (w : Stepwise ω α) :
    (w.within late).whole = w.whole.within late := by
  funext c
  have hbind : (w.within late).whole c = (Strand.bind w _).run c := rfl
  have hw : w.whole c = Strand.run w c := rfl
  rw [hbind, Strand.run_bind, Work.within, hw]
  rcases Strand.run w c with ⟨(_ | _) | _, _⟩ <;> rfl

theorem whole_outcome (w : Stepwise ω α) : w.outcome.whole = w.whole.outcome := by
  funext c
  exact Strand.run_bind w _ c

end Stepwise

theorem Sync.outside_bind {ε : Type} (f : ε → SyncError) (w : Work ω ε α) (g : α → Work ω ε β) :
    outside f (w >>= g) = outside f w >>= fun a => outside f (g a) := by
  funext c
  have hw := outside_eq f w c
  rw [outside_eq]
  rcases hr : w c.world with ⟨_ | a, v⟩
  · rw [hr] at hw
    rw [bind_of_error hr, bind_of_error hw]
  · rw [hr] at hw
    rw [bind_of_ok hr, bind_of_ok hw, outside_eq]

namespace Syncer

open Stepwise

variable (y : Syncer ω)

theorem whole_snapshotSteps (token : String) (id : Int) :
    (y.snapshotSteps token id).whole = Sync.outside .esi (Snapshot.fetch y.ask token id) := by
  have hask (c : Esi.Call) : (y.askStep token c).whole = Sync.outside .esi (y.ask token c) := rfl
  have halliance (c : Esi.CorporationData) : (y.allianceSteps token c).whole =
      Sync.outside .esi (Snapshot.fetchAlliance y.ask token c) := by
    rw [allianceSteps, Snapshot.fetchAlliance]
    cases c.allianceId.filter (· != 0) with
    | none => rfl
    | some id =>
      simp only [whole_bind, Sync.outside_bind, hask]
      rfl
  rw [snapshotSteps, Snapshot.fetch]
  simp only [whole_bind, Sync.outside_bind, hask, halliance]
  rfl

theorem whole_storeSteps (token : Token) (id : Int) :
    (y.storeSteps token id).whole = y.fetchAndStore token id := by
  simp only [storeSteps, whole_bind, whole_snapshotSteps]
  rfl

theorem whole_tokenSteps (id : Int) : (y.tokenSteps id).whole = y.loadToken id := by
  rw [tokenSteps, loadToken, whole_bind]
  congr 1
  funext row
  cases row with
  | none => rfl
  | some row =>
    simp only [whole_bind]
    congr 1
    funext row
    congr 1
    funext now
    split <;> rfl

theorem whole_nameSteps (skills : List Int) : (y.nameSteps skills).whole = y.resolveNames skills := by
  rw [nameSteps, resolveNames, whole_bind]
  congr 1
  funext unnamed
  split
  · rfl
  · simp only [whole_bind]
    rfl

theorem whole_refreshSteps (id : Int) : (y.refreshSteps id).whole = y.refresh id := by
  simp only [refreshSteps, whole_bind, whole_within, whole_storeSteps, whole_tokenSteps, whole_outcome,
    whole_nameSteps]
  rfl

/-- Whatever is done outside in between, what is asked is answered alike, and a token is stowed for its
own character. -/
structure Steady (y : Syncer ω) : Prop where
  ask : ∀ t u c v w, (y.ask t c v).1 = (y.ask u c w).1
  renew : ∀ r v w, (y.renew r v).1 = (y.renew r w).1
  stow : ∀ row v w, (y.stow row v).1 = (y.stow row w).1
  restore : ∀ row v w, (y.restore row v).1 = (y.restore row w).1
  now : ∀ v w, y.now v = y.now w
  owner : ∀ row w, (y.stow row w).1.characterId = row.characterId

end Syncer

theorem Database.kept_of_named {P : Store → Prop} {d : Database} {names : Table Int String}
    (h : (d.named names).Kept P) : d.Kept fun s => P { s with skillNames := names } :=
  ⟨h.idle, h.whole, h.unlocked, h.store⟩

def Scene.seen (c : Scene ω) : Database := c.database.named .empty

namespace Stepwise

variable {P : Store → Prop} {relies : Database → Prop}

def Anything : Store → Prop := fun _ => True

/-- What fails changes nothing, and `R` tells what is changed with a value. -/
def Accords (R : α → Option (Database → Database) → Prop) :
    Except (Halt SyncError) α → Option (Database → Database) → Prop
  | .ok a, owed => R a owed
  | .error _, owed => owed = none

/-- The result of a sync in steps, and what it changes, are known before it begins. -/
def Bound (relies : Database → Prop) (R : α → Option (Database → Database) → Prop)
    (w : Stepwise ω α) : Prop :=
  ∃ r owed, Strand.Owes Scene.seen (Database.Kept Anything) (· = r) w relies owed ∧ Accords R r owed

/-- The work changes nothing, and something is known of the value it may bring. -/
def Quiet (relies : Database → Prop) (R : α → Prop) (w : Stepwise ω α) : Prop :=
  Bound relies (fun a owed => owed = none ∧ R a) w

theorem Quiet.pure {R : α → Prop} {a : α} (h : R a) : Quiet relies R (Pure.pure a : Stepwise ω α) :=
  ⟨.ok a, none, ⟨rfl, rfl⟩, rfl, h⟩

theorem bound_throw {R : α → Option (Database → Database) → Prop} (h : Halt SyncError) :
    Bound relies R (throw h : Stepwise ω α) :=
  ⟨.error h, none, ⟨rfl, rfl⟩, rfl⟩

theorem Quiet.bind {Q : α → Prop} {R : β → Option (Database → Database) → Prop} {w : Stepwise ω α}
    {f : α → Stepwise ω β} (hw : Quiet relies Q w) (hf : ∀ a, Q a → Bound relies R (f a)) :
    Bound relies R (w >>= f) := by
  obtain ⟨r, owed, ht, hr⟩ := hw
  cases r with
  | error h =>
    cases hr
    refine ⟨.error h, none, ht.bind ?_, rfl⟩
    rintro _ rfl
    exact ⟨rfl, rfl⟩
  | ok a =>
    obtain ⟨rfl, ha⟩ := hr
    obtain ⟨r, owed, hfa, hr⟩ := hf a ha
    refine ⟨r, owed, ht.bind ?_, hr⟩
    rintro _ rfl
    exact hfa

theorem Quiet.atom {R : α → Prop} {w : Sync ω α} (r : Except (Halt SyncError) α)
    (hw : ∀ c : Scene ω, relies c.seen → (w c).1 = r ∧ (w c).2.seen = c.seen)
    (hr : ∀ a, r = .ok a → R a) : Quiet relies R (.atom w) := by
  refine ⟨r, none, fun c hc => .inl ⟨(hw c hc).2, rfl, (hw c hc).1⟩, ?_⟩
  cases r with
  | ok a => exact ⟨rfl, hr a rfl⟩
  | error h => rfl

def Idle (relies : Database → Prop) (w : Stepwise ω α) : Prop :=
  Strand.Owes Scene.seen (Database.Kept Anything) (fun _ => True) w relies none

theorem Idle.bind {w : Stepwise ω α} {f : α → Stepwise ω β} (hw : Idle relies w)
    (hf : ∀ a, Idle relies (f a)) : Idle relies (w >>= f) := by
  refine Strand.Owes.bind hw fun r _ => ?_
  cases r with
  | ok a => exact hf a
  | error h => exact ⟨rfl, trivial⟩

theorem Idle.atom {w : Sync ω α} (hw : ∀ c : Scene ω, relies c.seen → (w c).2.seen = c.seen) :
    Idle relies (.atom w) :=
  fun c hc => .inl ⟨hw c hc, rfl, trivial⟩

/-- The limit of time changes only how a sync that would not end is told of. -/
theorem Bound.within {R : α → Option (Database → Database) → Prop} {w : Stepwise ω α}
    (hw : Bound relies R w) (late : SyncError) : Bound relies R (w.within late) := by
  obtain ⟨r, owed, ht, hr⟩ := hw
  refine ⟨givenUp late r, owed, ht.bind_idle ?_ ?_, ?_⟩
  · rintro _ rfl
    exact ⟨rfl, rfl⟩
  · rintro _ rfl
    exact ⟨rfl, rfl⟩
  · rcases r with (_ | _) | _ <;> exact hr

theorem Bound.followed {R : α → Option (Database → Database) → Prop} {w : Stepwise ω α}
    {f : α → Stepwise ω β} (hw : Bound relies R w) (hf : ∀ a, Idle relies (f a))
    (hpaid : ∀ a, Idle (Database.Kept Anything) (f a)) :
    Bound relies R (do
      let a ← w
      let _ ← (f a).outcome
      return a) := by
  obtain ⟨r, owed, ht, hr⟩ := hw
  refine ⟨r, owed, ?_, hr⟩
  cases r with
  | error h =>
    refine ht.bind_idle ?_ ?_
    · rintro _ rfl
      exact ⟨rfl, rfl⟩
    · rintro _ rfl
      exact ⟨rfl, rfl⟩
  | ok a =>
    have htail {relies : Database → Prop} (h : Idle relies (f a)) :
        Strand.Owes Scene.seen (Database.Kept Anything) (· = .ok a)
          (do let _ ← (f a).outcome; return a : Stepwise ω α) relies none :=
      Strand.Owes.bind (Q := fun x => ∃ r, x = .ok r) (Strand.Owes.bind h fun r _ => ⟨rfl, r, rfl⟩) (by
        rintro _ ⟨r, rfl⟩
        exact ⟨rfl, rfl⟩)
    refine ht.bind_idle ?_ ?_
    · rintro _ rfl
      exact htail (hf a)
    · rintro _ rfl
      exact htail (hpaid a)

end Stepwise

namespace Syncer

open Stepwise

variable {y : Syncer ω} {relies : Database → Prop}

def Says (y : Syncer ω) (id : Int) (s : Snapshot) : Prop :=
  s.Coherent ∧ ∀ e ∈ s.exchanges id, ∀ token w, (y.ask token e.1 w).1 = .ok e.2

theorem quiet_outside {ε : Type} {f : ε → SyncError} {w : Work ω ε α} {R : α → Prop} (v : ω)
    (hw : ∀ u, (w u).1 = (w v).1) (hr : ∀ a, (w v).1 = .ok a → R a) :
    Quiet relies R (.atom (Sync.outside f w)) := by
  refine .atom ((w v).1.mapError (Halt.map f)) (fun c _ => ?_) fun a ha => hr a ?_
  · have hc := hw c.world
    rw [Sync.outside_eq]
    rcases hr : w c.world with ⟨_ | _, _⟩
    · rw [hr] at hc
      rw [← hc]
      exact ⟨rfl, rfl⟩
    · rw [hr] at hc
      rw [← hc]
      exact ⟨rfl, rfl⟩
  · cases hv : (w v).1 with
    | error h =>
      rw [hv] at ha
      cases ha
    | ok b =>
      rw [hv] at ha
      cases ha
      rfl

theorem quiet_change {f : ω → α × ω} {R : α → Prop} (v : ω) (hf : ∀ u, (f u).1 = (f v).1)
    (hr : R (f v).1) : Quiet relies R (.atom (Sync.change f)) := by
  refine .atom (.ok (f v).1) (fun c _ => ⟨?_, rfl⟩) fun a ha => ?_
  · rw [← hf c.world]
    rfl
  · cases ha
    exact hr

theorem idle_nameSteps (y : Syncer ω) (hrelies : ∀ d, relies d → d.Kept Anything)
    (skills : List Int) :
    Idle relies (y.nameSteps skills) := by
  refine .bind (.atom fun c hc => ?_) fun unnamed => ?_
  · rw [Sync.inside_eq (Database.kept_of_named (hrelies _ hc)), Database.run_look]
    cases c.database.store.unnamed skills <;> rfl
  · split
    · exact ⟨rfl, trivial⟩
    · refine .bind (.atom fun c hc => ?_) fun things => .bind (.atom fun c hc => ?_) fun _ =>
        ⟨rfl, trivial⟩
      · rw [Sync.outside_eq]
        rcases y.ask "" (.names unnamed) c.world with ⟨_ | _, _⟩ <;> rfl
      · rw [Sync.inside_eq (Database.kept_of_named (hrelies _ hc))]
        rfl

section

variable (hy : y.Steady) (v : ω)
include hy v

theorem quiet_askStep (token : String) (c : Esi.Call) :
    Quiet relies (fun x => ∀ t w, (y.ask t c w).1 = .ok x) (y.askStep token c) := by
  refine quiet_outside v (fun u => hy.ask _ _ _ _ _) fun x hx t w => ?_
  rw [← hx]
  exact hy.ask _ _ _ _ _

theorem quiet_allianceSteps (token : String) (c : Esi.CorporationData) :
    Quiet relies (fun a => a.map (·.1) = c.allianceId.filter (· != 0) ∧ ∀ x ∈ a,
      (∀ t w, (y.ask t (.alliance x.1) w).1 = .ok x.2.1) ∧
        ∀ t w, (y.ask t (.allianceIcons x.1) w).1 = .ok x.2.2) (y.allianceSteps token c) := by
  rw [allianceSteps]
  cases ha : c.allianceId.filter (· != 0) with
  | none => exact .pure ⟨rfl, fun x hx => by cases hx⟩
  | some id =>
    refine (quiet_askStep hy v token (.alliance id)).bind fun data hdata =>
      (quiet_askStep hy v token (.allianceIcons id)).bind fun icons hicons => Quiet.pure ⟨rfl, ?_⟩
    rintro x ⟨⟩
    exact ⟨hdata, hicons⟩

theorem quiet_snapshotSteps (token : String) (id : Int) :
    Quiet relies (y.Says id) (y.snapshotSteps token id) := by
  refine (quiet_askStep hy v token (.character id)).bind fun person hperson =>
    (quiet_askStep hy v token (.portrait id)).bind fun portrait hportrait =>
    (quiet_askStep hy v token (.corporation person.corporationId)).bind fun corporation hcorporation =>
    (quiet_askStep hy v token (.corporationIcons person.corporationId)).bind fun icons hicons =>
    (quiet_askStep hy v token (.skills id)).bind fun skills hskills =>
    (quiet_allianceSteps hy v token corporation).bind fun alliance halliance =>
    Quiet.pure ⟨halliance.1, fun e he => ?_⟩
  rw [Snapshot.exchanges, List.mem_append] at he
  obtain he | he := he
  · simp only [List.mem_cons, List.not_mem_nil, or_false] at he
    obtain rfl | rfl | rfl | rfl | rfl := he
    · exact hperson
    · exact hportrait
    · exact hcorporation
    · exact hicons
    · exact hskills
  · rcases alliance with _ | ⟨a, data, allianceIcons⟩
    · cases he
    · obtain ⟨hdata, hallianceIcons⟩ := halliance.2 _ rfl
      simp only [List.mem_cons, List.not_mem_nil, or_false] at he
      obtain rfl | rfl := he
      · exact hdata
      · exact hallianceIcons

def Stores (y : Syncer ω) (id : Int) (data : CharacterData) (owed : Option (Database → Database)) :
    Prop :=
  ∃ s now row, y.Says id s ∧ row.characterId = id ∧ data = s.data id ∧
    owed = some (s.settled now id row)

/-- What the sync of a character relies on: its token and its skills stay as they are. -/
def Holds (id : Int) (stored : Except StoreError (Option TokenRow)) (skills : Table Int Int)
    (d : Database) : Prop :=
  d.Kept fun s => s.token? id = stored ∧ s.skillTable id = skills

theorem bound_storeSteps (id : Int) (stored : Except StoreError (Option TokenRow))
    (skills : Table Int Int) (token : Token) :
    Bound (Holds id stored skills) (y.Stores id) (y.storeSteps token id) := by
  refine (quiet_snapshotSteps hy v token.accessToken id).bind fun s hs =>
    (quiet_change (R := fun row => row.characterId = id) v (fun u => hy.stow _ _ _)
      (hy.owner _ v)).bind fun row hrow => ?_
  have htable {c : Scene ω} (hc : Holds id stored skills c.seen) : c.database.store.skillTable id = skills :=
    hc.store.2
  have hkept {c : Scene ω} (hc : Holds id stored skills c.seen) := Database.kept_of_named hc
  by_cases hfew : Store.Droppable skills s.skillIds
  · refine ⟨.ok (s.data id), some (s.settled (y.now v) id row), fun c hc => .inr ⟨_, rfl, ?_⟩,
      s, y.now v, row, hs, hrow, rfl, rfl⟩
    have hkeep := y.keep_eq (hkept hc) c.world s hrow (by rw [Snapshot.Fits, htable hc]; exact hfew)
    rw [hy.now c.world v] at hkeep
    refine ⟨?_, rfl, congrArg Prod.fst hkeep⟩
    dsimp only
    rw [hkeep]
    rfl
  · refine ⟨.error (.failed (.store (Database.overflow Store.skillsStatement skills s.skillIds))), none,
      fun c hc => .inl ?_, rfl⟩
    have hkeep := y.keep_refused (hkept hc) c.world s hrow (by rw [Snapshot.Fits, htable hc]; exact hfew)
    rw [Snapshot.overflow, htable hc] at hkeep
    refine ⟨?_, rfl, congrArg Prod.fst hkeep⟩
    dsimp only
    rw [hkeep]

theorem quiet_tokenSteps (id : Int) (stored : Except StoreError (Option TokenRow))
    (skills : Table Int Int) : Quiet (Holds id stored skills) (fun _ => True) (y.tokenSteps id) := by
  have hlook : Quiet (Holds id stored skills) (fun _ => True)
      (.atom (Sync.inside (Database.run (Store.look fun t => t.token? id))) : Stepwise ω _) := by
    refine .atom (stored.mapError fun e => .failed (.store e)) (fun c hc => ?_) fun _ _ => trivial
    have htoken : c.database.store.token? id = stored := hc.store.1
    rw [Sync.inside_eq (Database.kept_of_named hc), Database.run_look, htoken]
    cases stored <;> exact ⟨rfl, rfl⟩
  refine hlook.bind fun row _ => ?_
  cases row with
  | none => exact bound_throw _
  | some row =>
    refine (quiet_change (R := fun _ => True) v (fun u => hy.restore _ _ _) trivial).bind fun row _ =>
      (quiet_change (R := fun _ => True) v (fun u => hy.now _ _) trivial).bind fun now _ => ?_
    split
    · exact quiet_outside v (fun u => hy.renew _ _ _) fun _ _ => trivial
    · exact Quiet.pure trivial

theorem bound_refreshSteps (id : Int) (stored : Except StoreError (Option TokenRow))
    (skills : Table Int Int) : Bound (Holds id stored skills) (y.Stores id) (y.refreshSteps id) := by
  have hrelies (d : Database) (hd : Holds id stored skills d) : d.Kept Anything :=
    { hd with store := trivial }
  refine Bound.followed (.within ?_ _) (fun _ => idle_nameSteps y hrelies _) fun _ =>
    idle_nameSteps y (fun _ hd => hd) _
  exact (quiet_tokenSteps hy v id stored skills).bind fun token _ =>
    bound_storeSteps hy v id stored skills token

end

end Syncer

end Muster
