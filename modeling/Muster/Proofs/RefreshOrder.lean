import Mathlib.Data.List.Nodup
import Muster.Proofs.Reading
import Muster.Proofs.Stepwise

/-! All characters synced side by side come to what they come to one after another, in whatever order
the steps of their syncs are made. -/

namespace Muster

variable {ω : Type}

/-! Stores for two characters may be made in any order: where both write a corporation or an alliance,
they write the same. -/

namespace Syncer

variable {y : Syncer ω} {id id' : Int} {s s' : Snapshot}

theorem Says.corporation (h : y.Says id s) (token : String) (w : ω) :
    (y.ask token (.corporation s.person.corporationId) w).1 = .ok s.corporation :=
  h.2 ⟨.corporation s.person.corporationId, s.corporation⟩ (by simp [Snapshot.exchanges]) token w

theorem Says.corporationIcons (h : y.Says id s) (token : String) (w : ω) :
    (y.ask token (.corporationIcons s.person.corporationId) w).1 = .ok s.corporationIcons :=
  h.2 ⟨.corporationIcons s.person.corporationId, s.corporationIcons⟩ (by simp [Snapshot.exchanges])
    token w

theorem Says.alliance (h : y.Says id s) {a : Int} {data : Esi.AllianceData} {icons : Esi.AllianceIcons}
    (ha : s.alliance = some (a, data, icons)) (token : String) (w : ω) :
    (y.ask token (.alliance a) w).1 = .ok data ∧ (y.ask token (.allianceIcons a) w).1 = .ok icons :=
  ⟨h.2 ⟨.alliance a, data⟩ (by simp [Snapshot.exchanges, ha]) token w,
    h.2 ⟨.allianceIcons a, icons⟩ (by simp [Snapshot.exchanges, ha]) token w⟩

theorem Says.corporationRow_eq (h : y.Says id s) (h' : y.Says id' s') (w : ω)
    (heq : s.corporationRow.id = s'.corporationRow.id) : s.corporationRow = s'.corporationRow := by
  have heq : s.person.corporationId = s'.person.corporationId := heq
  have hcorporation := h.corporation "" w
  have hicons := h.corporationIcons "" w
  rw [heq] at hcorporation hicons
  have hsame := Except.ok.inj (hcorporation.symm.trans (h'.corporation "" w))
  have hsameIcons := Except.ok.inj (hicons.symm.trans (h'.corporationIcons "" w))
  rw [Snapshot.corporationRow, Snapshot.corporationRow, h.1, h'.1, heq, hsame, hsameIcons]

theorem Says.allianceRow_eq (h : y.Says id s) (h' : y.Says id' s') (w : ω) {a b : Alliance}
    (ha : s.allianceRow = some a) (hb : s'.allianceRow = some b) (heq : a.id = b.id) : a = b := by
  obtain ⟨⟨i, data, icons⟩, hs, rfl⟩ := Option.map_eq_some_iff.1 ha
  obtain ⟨⟨j, data', icons'⟩, hs', rfl⟩ := Option.map_eq_some_iff.1 hb
  obtain rfl : i = j := heq
  obtain ⟨hdata, hicons⟩ := h.alliance hs "" w
  obtain ⟨hdata', hicons'⟩ := h'.alliance hs' "" w
  cases hdata.symm.trans hdata'
  cases hicons.symm.trans hicons'
  rfl

theorem Says.settle_comm (h : y.Says id s) (h' : y.Says id' s') (w : ω) (hne : id ≠ id')
    (now now' : Instant) (row row' : TokenRow) (t : Store) :
    s.settle now id row (s'.settle now' id' row' t) = s'.settle now' id' row' (s.settle now id row t) := by
  have halliances : (s.settle now id row (s'.settle now' id' row' t)).alliances =
      (s'.settle now' id' row' (s.settle now id row t)).alliances := by
    simp only [Snapshot.settle, Snapshot.settleCorporation, Store.withCharacter]
    cases ha : s.allianceRow with
    | none => rfl
    | some a =>
      cases hb : s'.allianceRow with
      | none => rfl
      | some b =>
        refine Table.insert_comm _ fun heq => ?_
        rw [h.allianceRow_eq h' w ha hb heq.symm]
  have hcorporations : (s.settle now id row (s'.settle now' id' row' t)).corporations =
      (s'.settle now' id' row' (s.settle now id row t)).corporations := by
    refine Table.insert_comm _ fun heq => ?_
    rw [h.corporationRow_eq h' w heq.symm]
  have hcharacters : (s.settle now id row (s'.settle now' id' row' t)).characters =
      (s'.settle now' id' row' (s.settle now id row t)).characters :=
    Table.insert_comm _ fun heq => absurd heq.symm hne
  exact (Store.mk.injEq ..).mpr ⟨rfl, halliances, hcorporations, hcharacters, rfl, rfl, rfl, rfl, rfl⟩

end Syncer

namespace Snapshot

variable (s : Snapshot) (now : Instant) {id id' : Int} (row : TokenRow)

theorem token?_settle_of_ne (h : id' ≠ id) (t : Store) :
    (s.settle now id row t).token? id' = t.token? id' := by
  rw [Store.token?, Store.token?, s.get?_settle_of_ne now row h]

theorem skillTable_settle_of_ne (h : id' ≠ id) (t : Store) :
    (s.settle now id row t).skillTable id' = t.skillTable id' := by
  rw [Store.skillTable, Store.skillTable, s.get?_settle_of_ne now row h]

theorem kept_settled {P Q : Store → Prop} {d : Database} (hd : d.Kept P)
    (h : ∀ t, P t → Q (s.settle now id row t)) : (s.settled now id row d).Kept Q :=
  { hd with store := h _ hd.store }

end Snapshot

namespace Syncer

variable {y : Syncer ω} {c : Scene ω} {P : Store → Prop}

abbrev Outcome := Except (Halt SyncError) CharacterData

/-- What is known, before any sync begins, of the sync of each character. -/
structure Pledged (y : Syncer ω) (c : Scene ω) (p : Int → Pledge Database Outcome) : Prop where
  meets : ∀ id, (p id).Meets Scene.seen (Database.Kept Stepwise.Anything) (y.refreshSteps id)
  relies : ∀ id, (p id).relies = Holds id (c.database.store.token? id) (c.database.store.skillTable id)
  owed : ∀ id, Stepwise.Accords (y.Stores id) (p id).result (p id).owed

theorem exists_pledged (hy : y.Steady) (c : Scene ω) : ∃ p, y.Pledged c p := by
  choose r owed ht hr using fun id => bound_refreshSteps hy c.world id (c.database.store.token? id)
    (c.database.store.skillTable id)
  exact ⟨fun id => ⟨_, r id, owed id⟩, ht, fun _ => rfl, hr⟩

namespace Pledged

variable {p : Int → Pledge Database Outcome} (h : y.Pledged c p)
include h

theorem stores_of_owed {id : Int} {change : Database → Database} (howed : (p id).owed = some change) :
    ∃ s now row, y.Says id s ∧ change = s.settled now id row := by
  have hid := h.owed id
  cases hr : (p id).result with
  | ok data =>
    rw [hr] at hid
    obtain ⟨s, now, row, hs, -, -, hchange⟩ := hid
    rw [howed] at hchange
    exact ⟨s, now, row, hs, Option.some.inj hchange⟩
  | error e =>
    rw [hr] at hid
    cases howed.symm.trans hid

theorem spares {id id' : Int} (hne : id ≠ id') : (p id).Spares (p id') := by
  intro change howed d hd
  obtain ⟨s, now, row, -, rfl⟩ := h.stores_of_owed howed
  rw [h.relies] at hd ⊢
  exact s.kept_settled now row hd fun t ⟨htoken, hskills⟩ =>
    ⟨(s.token?_settle_of_ne now row hne.symm t).trans htoken,
      (s.skillTable_settle_of_ne now row hne.symm t).trans hskills⟩

theorem apart {id id' : Int} (hne : id ≠ id') : (p id).Apart (p id') where
  spares := h.spares hne
  spared := h.spares hne.symm
  commute f hf g hg := by
    intro d
    obtain ⟨s, now, row, hs, rfl⟩ := h.stores_of_owed hf
    obtain ⟨s', now', row', hs', rfl⟩ := h.stores_of_owed hg
    simp only [Snapshot.settled]
    rw [hs.settle_comm hs' c.world hne]

theorem compatible (hc : c.database.Kept P) {ids : List Int} (hids : ids.Nodup) :
    Pledge.Compatible (Database.Kept Stepwise.Anything) (ids.map p) c.seen where
  apart := List.pairwise_map.2 (hids.imp h.apart)
  relies q hq := by
    obtain ⟨id, -, rfl⟩ := List.mem_map.1 hq
    rw [h.relies]
    exact ⟨hc.idle, hc.whole, hc.unlocked, rfl, rfl⟩
  holds := ⟨hc.idle, hc.whole, hc.unlocked, trivial⟩
  keeps q hq change howed d hd := by
    obtain ⟨id, -, rfl⟩ := List.mem_map.1 hq
    obtain ⟨s, now, row, -, rfl⟩ := h.stores_of_owed howed
    exact s.kept_settled now row hd fun _ _ => trivial

/-- The order of steps matters neither to the results nor to what is stored. -/
theorem of_interleaved (hc : c.database.Kept P) {ids : List Int} (hids : ids.Nodup) {rs : List Outcome}
    {c' : Scene ω}
    (hrun : Strand.Interleaved (ids.map fun id => (y.refreshSteps id).run) c rs c') :
    rs = ids.map (fun id => (p id).result) ∧ c'.seen = Pledge.payAll (ids.map p) c.seen := by
  have hmeets : List.Forall₂ (Pledge.Meets Scene.seen (Database.Kept Stepwise.Anything))
      (ids.map fun id => (y.refreshSteps id).run) (ids.map p) := by
    rw [List.forall₂_map_left_iff, List.forall₂_map_right_iff, List.forall₂_same]
    exact fun id _ => h.meets id
  obtain ⟨hrs, hseen⟩ := Pledge.of_interleaved hrun hmeets (h.compatible hc hids)
  rw [List.map_map] at hrs
  exact ⟨hrs, hseen⟩

theorem fst_refresh (hc : c.database.Kept P) (id : Int) : (y.refresh id c).1 = (p id).result := by
  have hrun := Strand.interleaved_runEach [(y.refreshSteps id).run] c
  have hresult := (h.of_interleaved hc (List.nodup_singleton id) hrun).1
  rw [← y.whole_refreshSteps id]
  exact List.head_eq_of_cons_eq hresult

theorem character?_payAll (hc : c.database.Kept P) {ids : List Int} (hids : ids.Nodup) {id : Int}
    (hid : id ∈ ids) {data : CharacterData} (hr : (p id).result = .ok data) :
    data.character.id = id ∧ (Pledge.payAll (ids.map p) c.seen).store.character? id = some data := by
  have howed := h.owed id
  rw [hr] at howed
  obtain ⟨s, now, row, -, -, rfl, howed⟩ := howed
  have hapart := (h.compatible hc hids).apart
  obtain ⟨d, hd⟩ := Pledge.payAll_last hapart (List.mem_map_of_mem hid) howed c.seen
  rw [hd]
  exact ⟨rfl, s.character?_settle now id row d.store⟩

theorem get?_payAll (ids : List Int) {id : Int} {e : Halt SyncError} (hr : (p id).result = .error e) :
    (Pledge.payAll (ids.map p) c.seen).store.characters.get? id =
      c.database.store.characters.get? id := by
  have howed := h.owed id
  rw [hr] at howed
  refine Pledge.payAll_keeps (P := fun d : Database => d.store.characters.get? id =
    c.database.store.characters.get? id) (fun q hq change hchange d hd => ?_) rfl
  obtain ⟨id', -, rfl⟩ := List.mem_map.1 hq
  obtain ⟨s, now, row, -, rfl⟩ := h.stores_of_owed hchange
  have hne : id ≠ id' := by
    rintro rfl
    cases hchange.symm.trans howed
  exact (s.get?_settle_of_ne now row hne d.store).trans hd

end Pledged

theorem refreshEach_eq (y : Syncer ω) (ids : List Int) (c : Scene ω) :
    y.refreshEach ids c =
      (.ok (y.reports ids (Strand.runEach (ids.map fun id => (y.refreshSteps id).run) c).1),
        (Strand.runEach (ids.map fun id => (y.refreshSteps id).run) c).2) := by
  induction ids generalizing c with
  | nil => rfl
  | cons id ids ih =>
    have hfirst : (y.refresh id).outcome c = (.ok (y.refresh id c).1, (y.refresh id c).2) := rfl
    have hwhole : (y.refreshSteps id).run.run c = y.refresh id c := by
      rw [← y.whole_refreshSteps id]
      rfl
    rw [refreshEach, bind_of_ok hfirst, bind_of_ok (ih _), List.map_cons, Strand.runEach, hwhole]
    rfl

theorem rosterIds_eq (hc : c.database.Kept P) :
    rosterIds c = (.ok (c.database.store.roster.map (·.character.id)), c) := by
  rw [rosterIds, Sync.inside_eq hc]
  rfl

theorem refreshAll_eq (hc : c.database.Kept P) :
    let ids := c.database.store.roster.map (·.character.id)
    y.refreshAll c =
      (gather (y.reports ids (Strand.runEach (ids.map fun id => (y.refreshSteps id).run) c).1),
        (Strand.runEach (ids.map fun id => (y.refreshSteps id).run) c).2) := by
  intro ids
  have hids : Sync.inside (return (← get).store.roster.map (·.character.id)) c = (.ok ids, c) :=
    rosterIds_eq hc
  rw [refreshAll, bind_of_ok hids, bind_of_ok (y.refreshEach_eq ids c), gather]
  cases failures (y.reports ids (Strand.runEach (ids.map fun id => (y.refreshSteps id).run) c).1) <;> rfl

theorem refreshesAll_refreshAll (hc : c.database.Kept P) :
    y.RefreshesAll c (y.refreshAll c).1 (y.refreshAll c).2 := by
  rw [refreshAll_eq hc]
  exact .joined (rosterIds_eq hc) (Strand.interleaved_runEach _ c)

end Syncer

theorem Database.renames_of_seen {c c' : Scene ω} (h : c'.seen = c.seen) :
    c.database.Renames c'.database := by
  refine ⟨c'.database.store.skillNames, ?_⟩
  have hnamed := congrArg (fun d : Database => d.named c'.database.store.skillNames) h
  exact hnamed

namespace Syncer

variable {y : Syncer ω} {c : Scene ω} {P : Store → Prop}

theorem nodup_roster {s : Store} (h : s.Sound) : (s.roster.map (·.character.id)).Nodup := by
  rw [h.map_id_roster]
  exact (s.ranked_perm.map _).nodup_iff.2 s.characters.nodup_keys

theorem gather_eq_ok {rs : List (Int × Except SyncError CharacterData)} {datas : List CharacterData} :
    gather rs = .ok datas ↔ failures rs = [] ∧ (rs.filterMap fun r => r.2.toOption) = datas := by
  rw [gather]
  cases failures rs <;> simp

theorem gather_eq_error {rs : List (Int × Except SyncError CharacterData)} {h : Halt SyncError} :
    gather rs = .error h ↔ failures rs ≠ [] ∧ h = .failed (.multiple (failures rs)) := by
  rw [gather]
  cases failures rs <;> simp [eq_comm]

theorem gather_reports_eq_ok {ids : List Int} {rs : List Outcome} (hlength : ids.length = rs.length)
    {datas : List CharacterData} : gather (y.reports ids rs) = .ok datas ↔ rs = datas.map .ok := by
  rw [gather_eq_ok]
  induction ids generalizing rs datas with
  | nil =>
    cases rs with
    | nil => cases datas <;> simp [reports, failures]
    | cons r rs => cases hlength
  | cons id ids ih =>
    cases rs with
    | nil => cases hlength
    | cons r rs =>
      have htail : ids.length = rs.length := by simpa using hlength
      rcases r with (e | _) | data
      · cases datas <;> simp [reports, failures]
      · cases datas <;> simp [reports, failures]
      · cases datas with
        | nil => simp [reports, failures, Except.toOption]
        | cons d datas =>
          have hrest := @ih rs htail datas
          simp only [reports, failures] at hrest
          simp [reports, failures, Except.toOption, ← hrest, and_left_comm]

/-- Syncs side by side come to what they come to one after another, whatever the order of their steps, if
only names of skills are left out. All of them tell of their characters in the order of the roster, or
those that fail do; the former are stored, and the latter are as they were. -/
theorem refreshAll_in_any_order (hy : y.Steady) {c' : Scene ω}
    {r : Except (Halt SyncError) (List CharacterData)} (hc : c.database.Reachable)
    (h : y.RefreshesAll c r c') :
    let ids := c.database.store.roster.map (·.character.id)
    let told := ids.map fun id => (y.refresh id c).1
    r = (y.refreshAll c).1 ∧ (y.refreshAll c).2.database.Renames c'.database ∧
    (∀ datas, r = .ok datas ↔ told = datas.map .ok) ∧
    (∀ e, r = .error e ↔ failures (y.reports ids told) ≠ [] ∧
      e = .failed (.multiple (failures (y.reports ids told)))) ∧
    (∀ id ∈ ids, ∀ data, (y.refresh id c).1 = .ok data →
      data.character.id = id ∧ c'.database.store.character? id = some data) ∧
    ∀ id ∈ ids, ∀ e, (y.refresh id c).1 = .error e →
      c'.database.store.characters.get? id = c.database.store.characters.get? id := by
  intro ids told
  have hkept := hc.sound
  have hnodup : ids.Nodup := nodup_roster hkept.store
  obtain ⟨p, hp⟩ := exists_pledged hy c
  have htold : told = ids.map fun id => (p id).result :=
    List.map_congr_left fun id _ => hp.fst_refresh hkept id
  cases h with
  | unread hids =>
    rw [rosterIds_eq hkept] at hids
    cases hids
  | joined hids hrun =>
    rw [rosterIds_eq hkept] at hids
    cases hids
    -- One after another is an order of the steps too, and every order comes to the same.
    obtain ⟨hrs, hseen⟩ := hp.of_interleaved hkept hnodup hrun
    obtain ⟨hturns, hturnsSeen⟩ := hp.of_interleaved hkept hnodup (Strand.interleaved_runEach _ c)
    rw [← htold] at hrs hturns
    subst hrs
    have hlength : ids.length = told.length := (List.length_map _).symm
    refine ⟨?_, ?_, fun datas => gather_reports_eq_ok hlength, fun e => gather_eq_error,
      fun id hid data hdata => ?_, fun id _ e he => ?_⟩
    · rw [refreshAll_eq hkept, hturns]
    · rw [refreshAll_eq hkept]
      exact Database.renames_of_seen (hseen.trans hturnsSeen.symm)
    · have hstored := hp.character?_payAll hkept hnodup hid ((hp.fst_refresh hkept id).symm.trans hdata)
      rw [← hseen] at hstored
      exact hstored
    · have hsame := hp.get?_payAll ids ((hp.fst_refresh hkept id).symm.trans he)
      rw [← hseen] at hsame
      exact hsame

def fleet : Store.Action Unit := do
  Store.putCorporation ⟨500, none, "Caldari Navy", "CN", ""⟩
  Store.putCharacter ⟨0, 0⟩ ⟨1, "Ada", "", 500⟩
  Store.putCharacter ⟨0, 0⟩ ⟨2, "Bea", "", 500⟩
  Store.putCharacter ⟨0, 0⟩ ⟨3, "Cara", "", 500⟩
  Store.putToken (fleetToken.forCharacter 1)
  Store.putToken (fleetToken.forCharacter 2)
  Store.putToken (fleetToken.forCharacter 3)

theorem operation_fleet : Store.Operation fleet :=
  .next (.putCorporation _) fun _ => .next (.putCharacter ..) fun _ => .next (.putCharacter ..) fun _ =>
    .next (.putCharacter ..) fun _ => .next (.putToken _) fun _ => .next (.putToken _) fun _ =>
      .putToken _

def fleetScene : Scene Unit := ⟨(), (Database.run fleet .fresh).2⟩

theorem reachable_fleet : fleetScene.database.Reachable := .run .fresh operation_fleet

theorem refresh_fleet {id : Int}
    (h : (fleetScene.database.store.characters.get? id).bind (·.token) =
      some (Store.stored (fleetToken.forCharacter id))) :
    registry.refresh id fleetScene = registry.refreshWith fleetToken id fleetScene := by
  have hkept : fleetScene.database.Kept fun _ => True := ⟨rfl, rfl, rfl, trivial⟩
  have hread : Instant.read? (⟨2000, 0⟩ : Instant).secondsText = some ⟨2000, 0⟩ := by decide +kernel
  have htoken : fleetScene.database.store.token? id = .ok (some (fleetToken.forCharacter id)) := by
    rw [Store.token?, h]
    simp only [Store.stored, Token.forCharacter, fleetToken, hread]
  have hload : registry.loadToken id fleetScene = (.ok fleetToken, fleetScene) := by
    rw [loadToken_eq hkept, htoken]
    rfl
  exact limited_congr registry (bind_of_ok hload)

theorem roster_fleet : fleetScene.database.store.roster.map (·.character.id) = [1, 2, 3] := by
  have hnames : fleetScene.database.store.characters.toList.map (·.2.name) = ["Ada", "Bea", "Cara"] :=
    rfl
  have hsorted : (fleetScene.database.store.characters.toList.map (·.2.name)).Pairwise fun s t =>
      (Text.collate s t).isLE = true := by
    rw [hnames]
    decide
  have hranked : fleetScene.database.store.ranked = fleetScene.database.store.characters.toList :=
    List.mergeSort_of_pairwise (List.pairwise_map.1 hsorted)
  rw [reachable_fleet.sound.store.map_id_roster, hranked]
  rfl

def fleetPilot (id : Int) : CharacterData :=
  ⟨⟨id, "Pilot", "", 500⟩, ⟨500, none, "Caldari Navy", "CN", ""⟩, none, [⟨id, 3300, 5⟩]⟩

theorem refreshes_fleet : [1, 2, 3].map (fun id => (registry.refresh id fleetScene).1) =
    [.ok (fleetPilot 1), .ok (fleetPilot 2), .error (.failed missingIcons)] := by
  simp only [List.map_cons, List.map_nil]
  rw [refresh_fleet rfl, refresh_fleet rfl, refresh_fleet rfl]
  rfl

/-- The fleet synced side by side, where each waits for all behind it. -/
theorem fleet_in_reverse_order :
    registry.Steady ∧ fleetScene.database.Reachable ∧ ∃ c',
      registry.RefreshesAll fleetScene (.error (.failed (.multiple [(3, missingIcons)]))) c' ∧
      (registry.refreshAll fleetScene).2.database.Renames c'.database ∧
      c'.database.store.character? 1 = some (fleetPilot 1) ∧
      c'.database.store.character? 2 = some (fleetPilot 2) ∧
      c'.database.store.characters.get? 3 = fleetScene.database.store.characters.get? 3 := by
  have hsteady : registry.Steady := ⟨fun _ _ _ _ _ => rfl, fun _ _ _ => rfl, fun _ _ _ => rfl,
    fun _ _ _ => rfl, fun _ _ => rfl, fun _ _ => rfl⟩
  have hids := rosterIds_eq reachable_fleet.sound
  rw [roster_fleet] at hids
  obtain ⟨rs, c', hreverse⟩ : ∃ rs c', Strand.Interleaved
      ([1, 2, 3].map fun id => (registry.refreshSteps id).run) fleetScene rs c' :=
    ⟨_, _, Strand.interleaved_runBack _ _⟩
  have hrun := RefreshesAll.joined hids hreverse
  obtain ⟨-, hrenames, -, herror, hstored, hsame⟩ :=
    refreshAll_in_any_order hsteady reachable_fleet hrun
  rw [roster_fleet, refreshes_fleet] at herror
  rw [roster_fleet] at hstored hsame
  have htold := refreshes_fleet
  simp only [List.map_cons, List.map_nil, List.cons.injEq, and_true] at htold
  obtain ⟨h1, h2, h3⟩ := htold
  refine ⟨hsteady, reachable_fleet, c', ?_, hrenames, (hstored 1 (by simp) _ h1).2,
    (hstored 2 (by simp) _ h2).2, hsame 3 (by simp) _ h3⟩
  rw [(herror _).2 ⟨by simp [reports, failures], rfl⟩] at hrun
  exact hrun

end Syncer

end Muster
