import Muster.Proofs.Forgetting
import Muster.Proofs.Renewal

/-! A refresh token leaves its row only for an entry of the keychain that has just told it, whatever the
vault does; and no more is touched of the vault than the entry of the character. -/

namespace Muster

variable {σ α : Type}

namespace Vault

structure Touch where
  key : String
  fault : Option VaultError

def Touch.of (key : String) : Except VaultError α → Touch
  | .ok _ => ⟨key, none⟩
  | .error e => ⟨key, some e⟩

@[simp] theorem Touch.key_of (key : String) (r : Except VaultError α) : (of key r).key = key := by
  cases r <;> rfl

def note (key : String) (r : Except VaultError α × σ) (log : List Touch) :
    Except VaultError α × σ × List Touch :=
  (r.1, r.2, log ++ [.of key r.1])

def noted (v : Vault σ) : Vault (σ × List Touch) where
  openEntry key s := note key (v.openEntry key s.1) s.2
  write key value s := note key (v.write key value s.1) s.2
  read key s := note key (v.read key s.1) s.2
  remove key s := note key (v.remove key s.1) s.2

end Vault

namespace Keychain

open Vault (Touch)

/-- The keychain is in use, and takes the value for the entry. -/
structure Takes (v : Vault σ) (key value : String) (k : Keychain σ) : Prop where
  available : k.unavailable = false
  opens : (v.openEntry key k.vault).1 = .ok ()
  writes : (v.write key value (v.openEntry key k.vault).2).1 = .ok ()

structure Answers (v : Vault σ) (key value : String) (k : Keychain σ) : Prop where
  available : k.unavailable = false
  opens : (v.openEntry key k.vault).1 = .ok ()
  reads : (v.read key (v.openEntry key k.vault).2).1 = .ok value

def ReadsBack (v : Vault σ) (row : TokenRow) (k : Keychain σ) : Prop :=
  k.Takes v (entryName row.characterId) row.refreshToken ∧
    (store v (entryName row.characterId) row.refreshToken k).2.Answers v (entryName row.characterId)
      row.refreshToken

def withLog (k : Keychain σ) (log : List Touch) : Keychain (σ × List Touch) :=
  ⟨k.unavailable, k.vault, log⟩

/-- What is done with a keychain is the same when its vault is noted, and touches one entry alone. -/
def Confines (key : String) (noted : Keychain (σ × List Touch) → α × Keychain (σ × List Touch))
    (plain : Keychain σ → α × Keychain σ) : Prop :=
  ∀ k log, ∃ touches, noted (k.withLog log) = ((plain k).1, (plain k).2.withLog (log ++ touches)) ∧
    ∀ t ∈ touches, t.key = key

variable {v : Vault σ} {k : Keychain σ} {row : TokenRow} {key value : String}

theorem attempt_eq_ok_iff {doing : String} {a absent : α} {op : σ → Except VaultError α × σ}
    (ha : a ≠ absent) : (attempt v key doing absent op k).1 = .ok a ↔
      k.unavailable = false ∧ (v.openEntry key k.vault).1 = .ok () ∧
        (op (v.openEntry key k.vault).2).1 = .ok a := by
  rw [attempt]
  cases k.unavailable with
  | true => simp [ha.symm]
  | false =>
    rcases v.openEntry key k.vault with ⟨e | _, s⟩
    · simp
    · rcases hop : op s with ⟨e | b, t⟩
      · by_cases he : e.isPlatform = true
        · simp [hop, he, ha.symm]
        · simp [hop, he]
      · simp [hop]

theorem store_eq_true_iff : (store v key value k).1 = .ok true ↔ k.Takes v key value := by
  have hwrite (s : σ) : (v.write key value s).1.map (fun _ => true) = .ok true ↔
      (v.write key value s).1 = .ok () := by
    cases (v.write key value s).1 <;> simp [Except.map]
  rw [store, attempt_eq_ok_iff (by decide), hwrite]
  exact ⟨fun h => ⟨h.1, h.2.1, h.2.2⟩, fun h => ⟨h.available, h.opens, h.writes⟩⟩

theorem get_eq_some_iff : (get v key k).1 = .ok (some value) ↔ k.Answers v key value := by
  have hread (s : σ) : (orMissing none ((v.read key s).1.map some, (v.read key s).2)).1 = .ok (some value) ↔
      (v.read key s).1 = .ok value := by
    rcases v.read key s with ⟨(_ | _) | _, _⟩ <;> simp [orMissing, Except.map]
  rw [get, attempt_eq_ok_iff (Option.some_ne_none value), hread]
  exact ⟨fun h => ⟨h.1, h.2.1, h.2.2⟩, fun h => ⟨h.available, h.opens, h.reads⟩⟩

theorem stow_of_readsBack (h : k.ReadsBack v row) :
    (stow v row k).1 = { row with refreshToken := "" } := by
  by_cases hempty : row.refreshToken = ""
  · rw [stow, if_pos (by simp [hempty])]
    exact congrArg (fun secret => { row with refreshToken := secret }) hempty
  · obtain ⟨htakes, hanswers⟩ := h
    have hstore : store v (entryName row.characterId) row.refreshToken k =
        (.ok true, (store v (entryName row.characterId) row.refreshToken k).2) :=
      Prod.ext (store_eq_true_iff.2 htakes) rfl
    have hget : get v (entryName row.characterId)
        (store v (entryName row.characterId) row.refreshToken k).2 = (.ok (some row.refreshToken), _) :=
      Prod.ext (get_eq_some_iff.2 hanswers) rfl
    rw [stow, if_neg (by simpa using hempty)]
    dsimp only
    rw [hstore]
    dsimp only
    rw [hget]
    exact if_pos rfl

theorem stow_of_not_readsBack (h : ¬k.ReadsBack v row) : (stow v row k).1 = row := by
  obtain hkept | ⟨-, k', hstore, hget⟩ := stow_cases v row k
  · exact hkept
  · refine absurd ⟨store_eq_true_iff.1 (congrArg Prod.fst hstore), ?_⟩ h
    rw [hstore]
    exact get_eq_some_iff.1 (congrArg Prod.fst hget)

theorem restore_of_answers (h : k.Answers v (entryName row.characterId) value)
    (hempty : row.refreshToken = "") : (restore v row k).1 = { row with refreshToken := value } := by
  rw [restore_of_empty hempty, get_eq_some_iff.2 h]

/-! What is touched -/

theorem orMissing_congr {τ : Type} (missing : α) (r : Except VaultError α) (s : σ) (t : τ) :
    orMissing missing (r, t) = ((orMissing missing (r, s)).1, t) := by
  rcases r with (_ | _) | _ <;> rfl

theorem confines_attempt {doing : String} {absent : α}
    {noted : σ × List Touch → Except VaultError α × σ × List Touch} {op : σ → Except VaultError α × σ}
    (h : ∀ s log, ∃ t : Touch, noted (s, log) = ((op s).1, (op s).2, log ++ [t]) ∧ t.key = key) :
    Confines key (attempt v.noted key doing absent noted) (attempt v key doing absent op) := by
  intro k log
  obtain ⟨_ | _, s⟩ := k
  · rw [withLog, attempt, attempt, if_neg Bool.false_ne_true, if_neg Bool.false_ne_true]
    dsimp only [Vault.noted]
    rcases v.openEntry key s with ⟨e | _, s⟩
    · exact ⟨[.of key (.error e : Except VaultError Unit)], rfl, by simp⟩
    · obtain ⟨t, hop, ht⟩ := h s (log ++ [.of key (.ok () : Except VaultError Unit)])
      refine ⟨[.of key (.ok () : Except VaultError Unit), t], ?_, by simp [ht]⟩
      dsimp only [Vault.note]
      rw [hop, List.append_assoc]
      rcases op s with ⟨e | a, s⟩
      · dsimp only
        split <;> rfl
      · rfl
  · exact ⟨[], by rw [List.append_nil]; rfl, by simp⟩

theorem confines_store (v : Vault σ) (key value : String) :
    Confines key (store v.noted key value) (store v key value) :=
  confines_attempt fun s _ => ⟨.of key (v.write key value s).1, rfl, Vault.Touch.key_of _ _⟩

theorem confines_get (v : Vault σ) (key : String) : Confines key (get v.noted key) (get v key) := by
  refine confines_attempt fun s log => ⟨.of key (v.read key s).1, ?_, Vault.Touch.key_of _ _⟩
  rw [orMissing_snd]
  exact orMissing_congr none _ _ _

theorem confines_delete (v : Vault σ) (key : String) : Confines key (delete v.noted key) (delete v key) := by
  refine confines_attempt fun s log => ⟨.of key (v.remove key s).1, ?_, Vault.Touch.key_of _ _⟩
  rw [orMissing_snd]
  exact orMissing_congr false _ _ _

theorem confines_stow (v : Vault σ) (row : TokenRow) :
    Confines (entryName row.characterId) (stow v.noted row) (stow v row) := by
  intro k log
  rw [stow, stow]
  by_cases hempty : row.refreshToken.isEmpty = true
  · rw [if_pos hempty, if_pos hempty]
    exact ⟨[], by rw [List.append_nil], by simp⟩
  · rw [if_neg hempty, if_neg hempty]
    obtain ⟨written, hstore, hwritten⟩ := confines_store v (entryName row.characterId) row.refreshToken k log
    dsimp only
    rw [hstore]
    rcases store v (entryName row.characterId) row.refreshToken k with ⟨_ | _ | _, k'⟩
    · exact ⟨written, rfl, hwritten⟩
    · exact ⟨written, rfl, hwritten⟩
    · obtain ⟨read, hget, hread⟩ := confines_get v (entryName row.characterId) k' (log ++ written)
      refine ⟨written ++ read, ?_, fun t ht => (List.mem_append.1 ht).elim (hwritten t) (hread t)⟩
      dsimp only
      rw [hget, List.append_assoc]
      rcases get v (entryName row.characterId) k' with ⟨_ | _ | _, _⟩ <;> rfl

theorem confines_restore (v : Vault σ) (row : TokenRow) :
    Confines (entryName row.characterId) (restore v.noted row) (restore v row) := by
  intro k log
  by_cases hempty : row.refreshToken = ""
  · obtain ⟨read, hget, hread⟩ := confines_get v (entryName row.characterId) k log
    rw [restore_of_empty hempty, restore_of_empty hempty, hget]
    exact ⟨read, rfl, hread⟩
  · rw [restore_of_secret hempty, restore_of_secret hempty]
    exact ⟨[], by rw [List.append_nil], by simp⟩

theorem confines_forget (v : Vault σ) (id : Int) :
    Confines (entryName id) (fun k => ((), forget v.noted id k)) fun k => ((), forget v id k) := by
  intro k log
  obtain ⟨removed, hdelete, hremoved⟩ := confines_delete v (entryName id) k log
  refine ⟨removed, ?_, hremoved⟩
  dsimp only [forget]
  rw [hdelete]

/-- To stow a token away changes no more of its row than the refresh token, and that is taken from the row
only if the keychain has just told it. It comes back from any keychain that still tells it. A row which
has its refresh token is left as it is. Each entry is touched for one character alone. -/
theorem stow_loses_no_secret (v : Vault σ) (row : TokenRow) (k : Keychain σ) :
    (k.ReadsBack v row → (stow v row k).1 = { row with refreshToken := "" }) ∧
    (¬k.ReadsBack v row → (stow v row k).1 = row) ∧
    (∀ k', (stow v row k).1.refreshToken = "" →
      k'.Answers v (entryName row.characterId) row.refreshToken → (restore v (stow v row k).1 k').1 = row) ∧
    (∀ r k', r.refreshToken ≠ "" → restore v r k' = (r, k')) ∧
    Confines (entryName row.characterId) (stow v.noted row) (stow v row) ∧
    Confines (entryName row.characterId) (restore v.noted row) (restore v row) ∧
    (∀ id, Confines (entryName id) (fun k => ((), forget v.noted id k)) fun k => ((), forget v id k)) ∧
    ∀ i j, i ≠ j → entryName i ≠ entryName j := by
  refine ⟨stow_of_readsBack, stow_of_not_readsBack, fun k' hempty hanswers => ?_, fun _ _ =>
    restore_of_secret, confines_stow v row, confines_restore v row, confines_forget v,
    fun _ _ => entryName_injective.ne⟩
  by_cases h : k.ReadsBack v row
  · rw [stow_of_readsBack h]
    exact restore_of_answers hanswers rfl
  · rw [stow_of_not_readsBack h] at hempty ⊢
    rw [restore_of_answers hanswers hempty]

/-! One keychain that keeps what it is given, and one that loses it -/

def forgetful : Vault (Table String String) := { Vault.memory with write := fun _ _ s => (.ok (), s) }

theorem secret_survives_both :
    let row : TokenRow := ⟨⟨"access", "refresh", "Bearer", ⟨1030, 0⟩⟩, 1⟩
    let stowed := stow .memory row (.fresh .empty)
    stowed.1 = { row with refreshToken := "" } ∧ (restore .memory stowed.1 stowed.2).1 = row ∧
      (stow forgetful row (.fresh .empty)).1 = row := by
  intro row stowed
  obtain ⟨hemptied, -, hrestored, -⟩ := stow_loses_no_secret .memory row (.fresh .empty)
  obtain ⟨-, hkept, -⟩ := stow_loses_no_secret forgetful row (.fresh .empty)
  have hreads : (Keychain.fresh .empty).ReadsBack .memory row :=
    ⟨⟨rfl, rfl, rfl⟩, ⟨rfl, rfl, by decide +kernel⟩⟩
  have hlost : ¬(Keychain.fresh .empty).ReadsBack forgetful row := by
    intro h
    exact absurd h.2.reads (by decide +kernel)
  have hagain : stowed.2.Answers .memory (entryName row.characterId) row.refreshToken :=
    ⟨by decide +kernel, rfl, by decide +kernel⟩
  have hstowed := hemptied hreads
  exact ⟨hstowed, hrestored stowed.2 (congrArg (fun r => r.refreshToken) hstowed) hagain, hkept hlost⟩

end Keychain

end Muster
