import Muster.App
import Muster.App.Request
import Muster.Proofs.Deletion
import Muster.Proofs.Digits
import Muster.Proofs.Renewal

/-! Deleted characters are forgotten by the keychain too, and all deletes leave the rest as it was. -/

namespace Muster

variable {ω σ : Type}

/-- Removing an entry changes no other one, and a removal that fails changes none. -/
structure Vault.Removes (v : Vault σ) (held : σ → String → Option String) : Prop where
  opens : ∀ key s, held (v.openEntry key s).2 = held s
  removes : ∀ key s, (v.remove key s).1 = .ok () →
    ∀ other, held (v.remove key s).2 other = if other = key then none else held s other
  fails : ∀ key s e, (v.remove key s).1 = .error e → held (v.remove key s).2 = held s
  misses : ∀ key s, (v.remove key s).1 = .error .noEntry → held s key = none

theorem Vault.contains_of_remove_memory {key : String} {s : Table String String} {e : VaultError}
    (h : (Vault.memory.remove key s).1 = .error e) : s.contains key = false := by
  cases hc : s.contains key with
  | false => rfl
  | true =>
    have hdone : (Vault.memory.remove key s).1 = .ok () := if_pos hc
    cases hdone.symm.trans h

theorem Vault.removes_memory : Vault.memory.Removes fun s key => s.get? key where
  opens _ _ := rfl
  removes key s _ other := Table.get?_erase s key other
  fails _ _ _ h := congrArg Table.get? (Table.erase_eq_self_iff.2 (contains_of_remove_memory h))
  misses _ _ h := Option.not_isSome_iff_eq_none.1 (Bool.eq_false_iff.1 (contains_of_remove_memory h))

namespace Keychain

variable {v : Vault σ} {held : σ → String → Option String} {k : Keychain σ} {key : String}

theorem entryName_injective : Function.Injective entryName := by
  intro i j h
  have hname (i : Int) : entryName i = "refresh_token:" ++ toString i := rfl
  have hlist : "refresh_token:".toList ++ (toString i).toList =
      "refresh_token:".toList ++ (toString j).toList := by
    rw [← String.toList_append, ← String.toList_append, ← hname, ← hname, h]
  have hread := Text.readSigned_toString i
  rw [List.append_cancel_left hlist, Text.readSigned_toString] at hread
  exact (Option.some.inj hread).symm

/-- The keychain is available for the removal of an entry, which may already be gone. -/
def Reaches (v : Vault σ) (key : String) (k : Keychain σ) : Prop :=
  k.unavailable = false ∧ (v.openEntry key k.vault).1 = .ok () ∧
    ((v.remove key (v.openEntry key k.vault).2).1 = .ok () ∨
      (v.remove key (v.openEntry key k.vault).2).1 = .error .noEntry)

theorem attempt_vault {α : Type} (doing : String) (absent : α)
    (op : σ → Except VaultError α × σ) :
    (attempt v key doing absent op k).2.vault =
      if k.unavailable then k.vault
      else match v.openEntry key k.vault with
        | (.error _, s) => s
        | (.ok (), s) => (op s).2 := by
  rw [attempt]
  split
  · rfl
  · rcases v.openEntry key k.vault with ⟨_ | _, s⟩
    · rfl
    · dsimp only
      rcases op s with ⟨_ | _, t⟩
      · dsimp only
        split <;> rfl
      · rfl

theorem orMissing_snd {α : Type} (missing : α) (r : Except VaultError α × σ) :
    (orMissing missing r).2 = r.2 := by
  obtain ⟨r, s⟩ := r
  rcases r with (_ | _) | _ <;> rfl

theorem held_delete (hv : v.Removes held) (key : String) (k : Keychain σ) :
    (k.Reaches v key → held (delete v key k).2.vault key = none) ∧
    (¬k.Reaches v key → held (delete v key k).2.vault key = held k.vault key) ∧
    ∀ other, other ≠ key → held (delete v key k).2.vault other = held k.vault other := by
  rw [delete, attempt_vault, Reaches]
  cases hu : k.unavailable with
  | true =>
    rw [if_pos rfl]
    exact ⟨fun h => absurd h.1 (by decide), fun _ => rfl, fun _ _ => rfl⟩
  | false =>
    rw [if_neg Bool.false_ne_true]
    have hopens := hv.opens key k.vault
    rcases hopen : v.openEntry key k.vault with ⟨e | _, s⟩ <;> rw [hopen] at hopens
    · exact ⟨fun h => absurd h.2.1 (by simp), fun _ => congrFun hopens key,
        fun other _ => congrFun hopens other⟩
    · dsimp only at hopens ⊢
      rw [← hopens, orMissing_snd]
      dsimp only
      -- A platform error sets the flag as well, but the vault is what the removal left in any case.
      cases hremove : (v.remove key s).1 with
      | ok =>
        have hremoves := hv.removes key s hremove
        refine ⟨fun _ => (hremoves key).trans (if_pos rfl), fun h => absurd ⟨rfl, rfl, .inl rfl⟩ h,
          fun other hother => (hremoves other).trans (if_neg hother)⟩
      | error e =>
        rw [hv.fails key s e hremove]
        refine ⟨fun h => hv.misses key s (hremove.trans ?_), fun _ => rfl, fun _ _ => rfl⟩
        exact h.2.2.resolve_left (by simp)

/-- After a delete the entry of the character is gone if there was such a character and the keychain is
available; else it is as it was, and so is every other entry. -/
structure Forgets (v : Vault σ) (held : σ → String → Option String) (id : Int) (deleted : Bool)
    (k k' : Keychain σ) : Prop where
  gone : deleted = true ∧ k.Reaches v (entryName id) → held k'.vault (entryName id) = none
  kept : ¬(deleted = true ∧ k.Reaches v (entryName id)) →
    held k'.vault (entryName id) = held k.vault (entryName id)
  others : ∀ key, key ≠ entryName id → held k'.vault key = held k.vault key
  characters : ∀ i, i ≠ id → held k'.vault (entryName i) = held k.vault (entryName i)
  idle : deleted = false ∨ k.unavailable = true → k' = k

theorem forgets (hv : v.Removes held) (id : Int) (deleted : Bool) (k : Keychain σ) :
    Forgets v held id deleted k (if deleted then forget v id k else k) := by
  cases deleted with
  | false =>
    exact ⟨fun h => absurd h.1 Bool.false_ne_true, fun _ => rfl, fun _ _ => rfl, fun _ _ => rfl,
      fun _ => rfl⟩
  | true =>
    obtain ⟨hgone, hkept, hothers⟩ := held_delete hv (entryName id) k
    refine ⟨fun h => hgone h.2, fun h => hkept fun hreaches => h ⟨rfl, hreaches⟩, hothers,
      fun i hi => hothers _ (entryName_injective.ne hi), fun h => ?_⟩
    rw [if_pos rfl, forget, delete, attempt_of_unavailable (h.resolve_left (by decide))]

end Keychain

def Session.withWorld (s : Session ω) (w : ω) : Session ω :=
  { s with portal := { s.portal with world := w } }

theorem Work.mapError_focus {ε δ α : Type} (f : ε → δ) (get : σ → ω) (set : ω → σ → σ)
    (w : Work ω ε α) : (w.focus get set).mapError f = (w.mapError f).focus get set := by
  funext s
  rw [Work.mapError, Work.focus, Work.focus, Work.mapError]
  rcases w (get s) with ⟨_ | _, t⟩ <;> rfl

theorem Grant.exchange_focus (get : σ → ω) (set : ω → σ → σ) (hget : ∀ w s, get (set w s) = w)
    (send : Http.Transport ω) (now : ω → Instant) (url client : String) (g : Grant) :
    g.exchange (fun r => (send r).focus get set) (fun s => now (get s)) url client =
      (g.exchange send now url client).focus get set := by
  funext s
  rw [exchange, exchange, Work.mapError_focus, Work.focus]
  rcases hsend : (send (g.request url client)).mapError AuthError.http (get s) with ⟨e | r, t⟩
  · have hfocus : ((send (g.request url client)).mapError AuthError.http).focus get set s =
        (.error e, set t s) := by rw [Work.focus, hsend]
    rw [bind_of_error hfocus, bind_of_error hsend]
  · have hfocus : ((send (g.request url client)).mapError AuthError.http).focus get set s =
        (.ok r, set t s) := by rw [Work.focus, hsend]
    rw [bind_of_ok hfocus, bind_of_ok hsend]
    cases TokenAnswer.read r with
    | error e => rfl
    | ok a =>
      simp only [Work.ofExcept, pure_bind, get_bind_apply, hget]
      cases a.toToken (now t) <;> rfl

namespace App

open Store (LacksTag LacksRole LacksCharacter Resettles)

theorem syncer_withKeychain (a : App ω) (v : Vault σ) :
    (a.withKeychain v).syncer = a.syncer.withKeychain v := by
  have hrenew : (a.withKeychain v).syncer.renew = (a.syncer.withKeychain v).renew :=
    funext fun secret => Grant.exchange_focus Prod.fst (fun w p => (w, p.2)) (fun _ _ => rfl)
      a.services.gateway.send a.services.gateway.now a.signOn.tokenUrl a.signOn.client
      (.refresh secret)
  exact congrArg (fun renew => { a.syncer.withKeychain v with renew }) hrenew

theorem deleteCharacter_eq (a : App ω) {s : Session ω} (h : s.database.poisoned = false) (id : Int) :
    a.deleteCharacter id s =
      let deleted := s.database.store.characters.contains id
      let t := s.withStore (s.database.store.withoutCharacter id)
      (.ok deleted, if deleted then t.withWorld (a.services.forget id s.portal.world) else t) := by
  have hdrop : Command.inside "Could not delete character" (Database.run (Store.dropCharacter id)) s =
      (.ok (s.database.store.characters.contains id),
        s.withStore (s.database.store.withoutCharacter id)) := by
    rw [Command.inside_run, h, Store.dropCharacter_eq]
    rfl
  rw [deleteCharacter, bind_of_ok hdrop]
  dsimp only
  cases s.database.store.characters.contains id <;> rfl

/-- A delete tells whether the thing was there. A tag goes with its requirements, with the links to it
and from the selection; a role with its links and from the selection; a character with its skills, its
token and its entry in the keychain, if that is available. All else is as it was. -/
theorem delete_removes_what_belongs {v : Vault σ} {held : σ → String → Option String}
    (hv : v.Removes held) (a : App ω) {s : Session (ω × Keychain σ)} (h : s.database.Reachable)
    (id : Int) :
    (∃ t settings, deleteTag id s = (.ok (s.database.store.tags.contains id), s.withStore t) ∧
      LacksTag id s.database.store t ∧
      Resettles settings (settings.withoutTag id) s.database.store t) ∧
    (∃ t settings, deleteRole id s = (.ok (s.database.store.roles.contains id), s.withStore t) ∧
      LacksRole id s.database.store t ∧
      Resettles settings (settings.withoutRole id) s.database.store t) ∧
    ∃ t k, (a.withKeychain v).deleteCharacter id s =
        (.ok (s.database.store.characters.contains id),
          (s.withStore t).withWorld (s.portal.world.1, k)) ∧
      LacksCharacter id s.database.store t ∧
      Keychain.Forgets v held id (s.database.store.characters.contains id) s.portal.world.2 k := by
  have hunlocked : s.database.poisoned = false := h.sound.unlocked
  obtain ⟨settings, hsettings⟩ := h.sound.store.settings_ok
  refine ⟨?_, ?_, ?_⟩
  · obtain ⟨t, hdrop, hlacks, hselection⟩ := Store.dropSelectedTag_ok hsettings id
    refine ⟨t, settings, ?_, hlacks, hselection⟩
    rw [deleteTag, Command.inside_run, hunlocked, hdrop]
    rfl
  · obtain ⟨t, hdrop, hlacks, hselection⟩ := Store.dropSelectedRole_ok hsettings id
    refine ⟨t, settings, ?_, hlacks, hselection⟩
    rw [deleteRole, Command.inside_run, hunlocked, hdrop]
    rfl
  · refine ⟨_, _, ?_, Store.lacksCharacter_withoutCharacter id _, Keychain.forgets hv id _ _⟩
    rw [deleteCharacter_eq _ hunlocked]
    cases s.database.store.characters.contains id <;> rfl

def crewSession : Session (Unit × Keychain (Table String String)) where
  portal := ⟨.empty, none, (), .fresh (.ofList
    [(Keychain.entryName 4, "secret"), (Keychain.entryName 9, "other")])⟩
  database := (Database.run Database.crew .fresh).2
  level := .info

theorem crew_is_deleted :
    crewSession.database.Reachable ∧
    (∃ t, deleteTag 1 crewSession = (.ok true, crewSession.withStore t) ∧
      t.settings? = .ok ⟨"debug", [], [1]⟩ ∧ t.allTagSkills = [] ∧ ⟨1, 1, 0⟩ ∉ t.allRoleTags) ∧
    (∃ t, deleteRole 1 crewSession = (.ok true, crewSession.withStore t) ∧
      t.settings? = .ok ⟨"debug", [1], []⟩ ∧ t.allTagSkills = [⟨1, 3300, 4⟩]) ∧
    ∃ t k, (offline.withKeychain .memory).deleteCharacter 4 crewSession =
        (.ok true, (crewSession.withStore t).withWorld ((), k)) ∧
      t.allSkills = [] ∧ t.allTokens = [] ∧
      k.vault.get? (Keychain.entryName 4) = none ∧
      k.vault.get? (Keychain.entryName 9) = some "other" := by
  have hr : crewSession.database.Reachable := .run .fresh Database.operation_crew
  have hsettings : crewSession.database.store.settings? = .ok ⟨"debug", [1], [1]⟩ := by
    have hread : Settings.read? (Settings.write ⟨"debug", [1], [1]⟩) = some ⟨"debug", [1], [1]⟩ := by
      decide +kernel
    have hget : crewSession.database.store.settings.get? Store.settingsKey =
        some (Settings.write ⟨"debug", [1], [1]⟩) := by decide +kernel
    rw [Store.settings?, hget]
    dsimp only
    rw [hread]
  have hrequirements : crewSession.database.store.allTagSkills = [⟨1, 3300, 4⟩] := rfl
  have hskills : crewSession.database.store.allSkills = [⟨4, 3300, 5⟩] := rfl
  obtain ⟨token, htokens⟩ : ∃ token, crewSession.database.store.allTokens = [(4, token)] := ⟨_, rfl⟩
  have htag : crewSession.database.store.tags.contains 1 = true := by decide +kernel
  have hrole : crewSession.database.store.roles.contains 1 = true := by decide +kernel
  have hfour : crewSession.database.store.characters.contains 4 = true := by decide +kernel
  obtain ⟨⟨t, v, htags, hlacksTag, hunselected⟩, ⟨u, w, hroles, hlacksRole, hunchosen⟩, -⟩ :=
    delete_removes_what_belongs Vault.removes_memory offline hr 1
  obtain ⟨-, -, x, k, hcharacter, hlacks, hforgets⟩ :=
    delete_removes_what_belongs Vault.removes_memory offline hr 4
  cases hsettings.symm.trans hunselected.before
  cases hsettings.symm.trans hunchosen.before
  refine ⟨hr, ⟨t, htag ▸ htags, hunselected.after, ?_, ?_⟩,
    ⟨u, hrole ▸ hroles, hunchosen.after, ?_⟩, ⟨x, k, hfour ▸ hcharacter, ?_, ?_, ?_, ?_⟩⟩
  · rw [hlacksTag.requirements, hrequirements]
    rfl
  · simp [hlacksTag.links]
  · rw [hlacksRole.rest]
    exact hrequirements
  · rw [hlacks.skills, hskills]
    rfl
  · rw [hlacks.tokens, htokens]
    rfl
  · exact hforgets.gone ⟨hfour, rfl, rfl, .inl (by decide +kernel)⟩
  · rw [hforgets.characters 9 (by decide)]
    decide +kernel

end App

end Muster
