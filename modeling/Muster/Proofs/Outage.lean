import Muster.Proofs.Stowing

/-! A vault that has shown itself to be unusable is left alone from then on. Until it has, all that is to
be stored, looked up or deleted reaches it. -/

namespace Muster

variable {σ α β : Type}

namespace Vault

inductive Touch.Breaks : Touch → Prop
  | failure (key cause : String) : Breaks ⟨key, some (.platformFailure cause)⟩
  | noAccess (key cause : String) : Breaks ⟨key, some (.noStorageAccess cause)⟩

def breaks : Except VaultError α → Bool
  | .ok _ => false
  | .error e => e.isPlatform

def Touch.breaks (t : Touch) : Bool := t.fault.any VaultError.isPlatform

theorem Touch.breaks_of (key : String) (r : Except VaultError α) : (of key r).breaks = Vault.breaks r := by
  cases r <;> rfl

theorem Touch.breaks_iff {t : Touch} : t.breaks = true ↔ t.Breaks := by
  constructor
  · obtain ⟨key, _ | (cause | cause | _)⟩ := t <;> intro h
    case some.platformFailure => exact .failure key cause
    case some.noStorageAccess => exact .noAccess key cause
    all_goals cases h
  · intro h
    cases h <;> rfl

/-- What may be noted of a vault, and whether it breaks in the end: after a touch that breaks there is no
other. -/
inductive Traced : List Touch → Bool → Prop
  | fresh : Traced [] false
  | touch {log : List Touch} (t : Touch) : Traced log false → Traced (log ++ [t]) t.breaks

theorem Traced.any_eq {log : List Touch} {broken : Bool} (h : Traced log broken) :
    log.any Touch.breaks = broken := by
  induction h with
  | fresh => rfl
  | touch t _ ih => simp [ih]

theorem Traced.broken_iff {log : List Touch} {broken : Bool} (h : Traced log broken) :
    broken = true ↔ ∃ t ∈ log, t.Breaks := by
  simp only [← h.any_eq, List.any_eq_true, Touch.breaks_iff]

theorem Traced.dropLast {log : List Touch} {broken : Bool} (h : Traced log broken) :
    ∀ t ∈ log.dropLast, ¬t.Breaks := by
  cases h with
  | fresh => simp
  | touch t h =>
    rw [List.dropLast_concat]
    intro u hu hbreaks
    exact Bool.false_ne_true (h.broken_iff.2 ⟨u, hu, hbreaks⟩)

def reach (v : Vault σ) (key : String) (op : σ → Except VaultError α × σ) (s : σ) : List Touch :=
  match v.openEntry key s with
  | (.error e, _) => [⟨key, some e⟩]
  | (.ok (), s) => [⟨key, none⟩, .of key (op s).1]

/-- The operation notes what `raw` comes to, and breaks if that does. -/
def Notes (key : String) (op : σ × List Touch → Except VaultError α × σ × List Touch)
    (raw : σ → Except VaultError β × σ) : Prop :=
  ∀ s log, (op (s, log)).2.2 = log ++ [.of key (raw s).1] ∧ breaks (op (s, log)).1 = breaks (raw s).1

theorem breaks_map (f : α → β) (r : Except VaultError α) : breaks (r.map f) = breaks r := by
  cases r <;> rfl

end Vault

namespace Keychain

open Vault (Touch Traced Notes breaks breaks_map reach)

theorem breaks_orMissing (missing : α) (r : Except VaultError α × σ) :
    breaks (orMissing missing r).1 = breaks r.1 := by
  rcases r with ⟨(_ | _) | _, _⟩ <;> rfl

inductive Errand where
  | store (key value : String)
  | get (key : String)
  | delete (key : String)
  | stow (row : TokenRow)
  | restore (row : TokenRow)
  | forget (characterId : Int)

inductive Reply where
  | stored (r : Except String Bool)
  | found (r : Except String (Option String))
  | deleted (r : Except String Bool)
  | row (row : TokenRow)
  | done

def Errand.run (v : Vault σ) : Errand → Keychain σ → Reply × Keychain σ
  | store key value, k => ((Keychain.store v key value k).map .stored id)
  | get key, k => (Keychain.get v key k).map .found id
  | delete key, k => (Keychain.delete v key k).map .deleted id
  | stow row, k => (Keychain.stow v row k).map .row id
  | restore row, k => (Keychain.restore v row k).map .row id
  | forget characterId, k => (.done, Keychain.forget v characterId k)

def Errand.idle : Errand → Reply
  | store _ _ => .stored (.ok false)
  | get _ => .found (.ok none)
  | delete _ => .deleted (.ok false)
  | stow row => .row row
  | restore row => .row row
  | forget _ => .done

/-- Errands one after another, each with the vault as it behaves at that time. -/
def runAll : List (Vault σ × Errand) → Keychain σ → List Reply × Keychain σ
  | [], k => ([], k)
  | (v, e) :: rest, k =>
    let (reply, k) := e.run v k
    let (replies, k) := runAll rest k
    (reply :: replies, k)

def notedAll (errands : List (Vault σ × Errand)) : List (Vault (σ × List Touch) × Errand) :=
  errands.map fun e => (e.1.noted, e.2)

section Idle

variable {v : Vault σ} {k : Keychain σ}

theorem Errand.run_of_unavailable (h : k.unavailable = true) (e : Errand) : e.run v k = (e.idle, k) := by
  cases e with
  | store key value => simp [run, idle, Keychain.store, attempt_of_unavailable h]
  | get key => simp [run, idle, get_of_unavailable h]
  | delete key => simp [run, idle, Keychain.delete, attempt_of_unavailable h]
  | stow row => simp [run, idle, Keychain.stow, Keychain.store, attempt_of_unavailable h]
  | restore row => simp [run, idle, Keychain.restore, get_of_unavailable h]
  | forget id => simp [run, idle, Keychain.forget, Keychain.delete, attempt_of_unavailable h]

/-- Once it is not available any more, a keychain stays as it is, whatever is asked of it. -/
theorem runAll_of_unavailable (h : k.unavailable = true) (errands : List (Vault σ × Errand)) :
    runAll errands k = (errands.map fun e => e.2.idle, k) := by
  induction errands with
  | nil => rfl
  | cons e rest ih => simp [runAll, e.2.run_of_unavailable h, ih]

end Idle

theorem unavailable_attempt {v : Vault σ} {key doing : String} {absent : α}
    {op : σ → Except VaultError α × σ} {k : Keychain σ} :
    (attempt v key doing absent op k).2.unavailable = if k.unavailable then true
      else match v.openEntry key k.vault with
        | (.error e, _) => e.isPlatform
        | (.ok (), s) => breaks (op s).1 := by
  rw [attempt]
  split
  · exact ‹_›
  · rcases v.openEntry key k.vault with ⟨e | _, s⟩
    · rfl
    · dsimp only
      rcases op s with ⟨e | _, t⟩
      · rw [breaks]
        cases he : e.isPlatform <;> simp [he]
      · rfl

theorem stow_snd (v : Vault σ) (row : TokenRow) (k : Keychain σ) :
    (stow v row k).2 =
      let written := store v (entryName row.characterId) row.refreshToken k
      if row.refreshToken.isEmpty then k
      else if written.1 = .ok true then (get v (entryName row.characterId) written.2).2 else written.2 := by
  rw [stow]
  split
  · rfl
  · dsimp only
    rcases store v (entryName row.characterId) row.refreshToken k with ⟨_ | _ | _, k'⟩
    · simp
    · simp
    · dsimp only
      rw [if_pos rfl]
      rcases get v (entryName row.characterId) k' with ⟨_ | _ | _, _⟩ <;> rfl

section Watched

variable {v : Vault σ} {key value : String}

theorem notes_write (v : Vault σ) (key value : String) :
    Notes key (fun s => ((v.noted.write key value s).1.map fun _ => true, (v.noted.write key value s).2))
      (v.write key value) :=
  fun _ _ => ⟨rfl, breaks_map _ _⟩

theorem notes_read (v : Vault σ) (key : String) :
    Notes key (fun s => orMissing none ((v.noted.read key s).1.map some, (v.noted.read key s).2))
      (v.read key) :=
  fun _ _ => ⟨by rw [orMissing_snd]; rfl, (breaks_orMissing _ _).trans (breaks_map _ _)⟩

theorem notes_remove (v : Vault σ) (key : String) :
    Notes key (fun s => orMissing false ((v.noted.remove key s).1.map fun _ => true, (v.noted.remove key s).2))
      (v.remove key) :=
  fun _ _ => ⟨by rw [orMissing_snd]; rfl, (breaks_orMissing _ _).trans (breaks_map _ _)⟩

variable {doing : String} {absent : α} {op : σ × List Touch → Except VaultError α × σ × List Touch}
  {raw : σ → Except VaultError β × σ} {k : Keychain (σ × List Touch)}

theorem log_attempt (h : Notes key op raw) (hk : k.unavailable = false) :
    (attempt v.noted key doing absent op k).2.vault.2 = k.vault.2 ++ reach v key raw k.vault.1 := by
  rw [attempt_vault, hk, if_neg Bool.false_ne_true, reach]
  dsimp only [Vault.noted, Vault.note]
  rcases v.openEntry key k.vault.1 with ⟨e | _, s⟩
  · rfl
  · dsimp only
    rw [(h s _).1, List.append_assoc]
    rfl

/-- The keychain is available as long as nothing that was noted breaks, and then no more is noted. -/
def InStep (k : Keychain (σ × List Touch)) : Prop := Traced k.vault.2 k.unavailable

theorem InStep.attempt (hk : k.InStep) (h : Notes key op raw) :
    (attempt v.noted key doing absent op k).2.InStep := by
  cases hu : k.unavailable with
  | true =>
    rw [attempt_of_unavailable hu]
    exact hk
  | false =>
    rw [InStep, hu] at hk
    rw [InStep, log_attempt h hu, unavailable_attempt, hu, if_neg Bool.false_ne_true, reach]
    dsimp only [Vault.noted, Vault.note]
    rcases v.openEntry key k.vault.1 with ⟨e | _, s⟩
    · exact hk.touch ⟨key, some e⟩
    · have hopened : Traced (k.vault.2 ++ [⟨key, none⟩]) false := hk.touch ⟨key, none⟩
      dsimp only
      rw [(h s _).2, ← Touch.breaks_of key, List.append_cons]
      exact hopened.touch _

theorem InStep.store (hk : k.InStep) : (store v.noted key value k).2.InStep :=
  hk.attempt (notes_write v key value)

theorem InStep.get (hk : k.InStep) : (get v.noted key k).2.InStep := hk.attempt (notes_read v key)

theorem InStep.delete (hk : k.InStep) : (delete v.noted key k).2.InStep :=
  hk.attempt (notes_remove v key)

theorem InStep.stow (hk : k.InStep) (row : TokenRow) : (stow v.noted row k).2.InStep := by
  rw [stow_snd]
  dsimp only
  split
  · exact hk
  · split
    · exact hk.store.get
    · exact hk.store

theorem InStep.restore (hk : k.InStep) (row : TokenRow) : (restore v.noted row k).2.InStep := by
  by_cases h : row.refreshToken = ""
  · rw [restore_of_empty h]
    exact hk.get
  · rw [restore_of_secret h]
    exact hk

theorem InStep.run (hk : k.InStep) (e : Errand) : (e.run v.noted k).2.InStep := by
  cases e with
  | store key value => exact hk.store
  | get key => exact hk.get
  | delete key => exact hk.delete
  | stow row => exact hk.stow row
  | restore row => exact hk.restore row
  | forget id => exact hk.delete

theorem InStep.runAll (hk : k.InStep) (errands : List (Vault σ × Errand)) :
    (runAll (notedAll errands) k).2.InStep := by
  induction errands generalizing k with
  | nil => exact hk
  | cons e rest ih => exact ih (hk.run e.2)

end Watched

section Noted

variable {v : Vault σ}

theorem Errand.run_noted (e : Errand) (k : Keychain σ) (log : List Touch) : ∃ touches,
    e.run v.noted (k.withLog log) = ((e.run v k).1, (e.run v k).2.withLog (log ++ touches)) := by
  cases e with
  | store key value =>
    obtain ⟨touches, h, -⟩ := confines_store v key value k log
    exact ⟨touches, congrArg (Prod.map Reply.stored id) h⟩
  | get key =>
    obtain ⟨touches, h, -⟩ := confines_get v key k log
    exact ⟨touches, congrArg (Prod.map Reply.found id) h⟩
  | delete key =>
    obtain ⟨touches, h, -⟩ := confines_delete v key k log
    exact ⟨touches, congrArg (Prod.map Reply.deleted id) h⟩
  | stow row =>
    obtain ⟨touches, h, -⟩ := confines_stow v row k log
    exact ⟨touches, congrArg (Prod.map Reply.row id) h⟩
  | restore row =>
    obtain ⟨touches, h, -⟩ := confines_restore v row k log
    exact ⟨touches, congrArg (Prod.map Reply.row id) h⟩
  | forget id =>
    obtain ⟨touches, h, -⟩ := confines_forget v id k log
    exact ⟨touches, congrArg (fun r => (Reply.done, r.2)) h⟩

theorem runAll_notedAll (errands : List (Vault σ × Errand)) (k : Keychain σ) (log : List Touch) :
    ∃ touches, runAll (notedAll errands) (k.withLog log) =
      ((runAll errands k).1, (runAll errands k).2.withLog (log ++ touches)) := by
  induction errands generalizing k log with
  | nil => exact ⟨[], by simp [runAll, notedAll]⟩
  | cons e rest ih =>
    obtain ⟨touches, hrun⟩ := e.2.run_noted (v := e.1) k log
    obtain ⟨more, hrest⟩ := ih (e.2.run e.1 k).2 (log ++ touches)
    refine ⟨touches ++ more, ?_⟩
    rw [notedAll] at hrest ⊢
    rw [List.map_cons, runAll, hrun, runAll]
    dsimp only
    rw [hrest, List.append_assoc]

end Noted

/-- Of all that is done with a vault, only the last may show that it is unusable. If it does, the vault is
left alone from then on, whatever is asked of the keychain and however the vault behaves. If not, all that
is to be stored, looked up or deleted next reaches the vault. -/
theorem unusable_vault_is_left_alone (earlier later : List (Vault σ × Errand)) (s : σ) :
    let k := (runAll (notedAll earlier) (.fresh (s, []))).2
    runAll (notedAll earlier) (.fresh (s, [])) =
        ((runAll earlier (.fresh s)).1, (runAll earlier (.fresh s)).2.withLog k.vault.2) ∧
      (∀ t ∈ k.vault.2.dropLast, ¬t.Breaks) ∧
      ((∃ t ∈ k.vault.2, t.Breaks) →
        runAll (notedAll later) k = (later.map fun e => e.2.idle, k)) ∧
      ((∀ t ∈ k.vault.2, ¬t.Breaks) → ∀ (v : Vault σ) (key value : String),
        (store v.noted key value k).2.vault.2 =
            k.vault.2 ++ reach v key (v.write key value) k.vault.1 ∧
          (get v.noted key k).2.vault.2 = k.vault.2 ++ reach v key (v.read key) k.vault.1 ∧
          (delete v.noted key k).2.vault.2 = k.vault.2 ++ reach v key (v.remove key) k.vault.1) := by
  intro k
  have hstep : k.InStep := InStep.runAll (k := .fresh (s, [])) .fresh earlier
  obtain ⟨touches, hnoted⟩ := runAll_notedAll earlier (.fresh s) []
  refine ⟨?_, hstep.dropLast, fun hbroken => ?_, fun hwhole v key value => ?_⟩
  · have hlog : k.vault.2 = [] ++ touches := congrArg (fun r => r.2.vault.2) hnoted
    rw [hlog]
    exact hnoted
  · have hk : k.unavailable = true := hstep.broken_iff.2 hbroken
    rw [runAll_of_unavailable hk, notedAll, List.map_map]
    rfl
  · have hk : k.unavailable = false := by
      refine eq_false_of_ne_true fun hk => ?_
      obtain ⟨t, ht, hbreaks⟩ := hstep.broken_iff.1 hk
      exact hwhole t ht hbreaks
    exact ⟨log_attempt (notes_write v key value) hk, log_attempt (notes_read v key) hk,
      log_attempt (notes_remove v key) hk⟩

def locked : Vault (Table String String) :=
  { Vault.memory with write := fun _ _ s => (.error (.platformFailure "locked"), s) }

theorem locked_vault_is_left_alone :
    let row : TokenRow := ⟨⟨"access", "refresh", "Bearer", ⟨1030, 0⟩⟩, 1⟩
    let kept : List (Vault (Table String String) × Errand) := [(.memory, .store "a" "1")]
    let lost := kept ++ [(locked, .store "a" "2")]
    let open₁ := (runAll (notedAll kept) (.fresh (.empty, []))).2
    let shut := (runAll (notedAll lost) (.fresh (.empty, []))).2
    (∀ t ∈ open₁.vault.2, ¬t.Breaks) ∧
      (get (Vault.noted .memory) "a" open₁).2.vault.2 = open₁.vault.2 ++ [⟨"a", none⟩, ⟨"a", none⟩] ∧
      (∃ t ∈ shut.vault.2, t.Breaks) ∧
      runAll (notedAll [(.memory, .get "a"), (.memory, .delete "a"), (.memory, .stow row)]) shut =
        ([.found (.ok none), .deleted (.ok false), .row row], shut) := by
  intro row kept lost open₁ shut
  have hopen : open₁.vault.2 = [⟨"a", none⟩, ⟨"a", none⟩] := rfl
  have hshut : shut.vault.2 =
      [⟨"a", none⟩, ⟨"a", none⟩, ⟨"a", none⟩, ⟨"a", some (.platformFailure "locked")⟩] := rfl
  have hwhole : ∀ t ∈ open₁.vault.2, ¬t.Breaks := by
    rw [hopen]
    simp [← Touch.breaks_iff, Touch.breaks]
  have hbroken : ∃ t ∈ shut.vault.2, t.Breaks := by
    rw [hshut]
    exact ⟨_, by simp, .failure "a" "locked"⟩
  obtain ⟨-, -, -, hreaches⟩ := unusable_vault_is_left_alone kept [] (.empty : Table String String)
  obtain ⟨-, -, hidle, -⟩ := unusable_vault_is_left_alone lost
    [(.memory, .get "a"), (.memory, .delete "a"), (.memory, .stow row)] (.empty : Table String String)
  exact ⟨hwhole, (hreaches hwhole .memory "a" "").2.1, hbroken, hidle hbroken⟩

end Keychain

end Muster
