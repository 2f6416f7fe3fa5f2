import Mathlib.Data.List.Permutation
import Muster.Proofs.Reading

/-! The overview and the matches of one character are the same results, though they are read from the
store in different ways. -/

namespace Muster

variable {ω α : Type}

namespace App

variable {P : Store → Prop} {s : Session ω}

theorem look_eq (h : s.database.Kept P) (message : String) (f : Store → Except StoreError α) :
    Command.look message f s =
      match f s.database.store with
      | .ok v => (.ok v, s)
      | .error e => (.error (.failed ((PublicError.new message).withHidden e.chain)), s) := by
  rw [Command.look, Command.inside, h.locked_eq, Database.run_look]
  cases f s.database.store <;> rfl

theorem look_ok (h : s.database.Kept P) (message : String) {f : Store → Except StoreError α} {a : α}
    (hf : f s.database.store = .ok a) : Command.look message f s = (.ok a, s) := by
  rw [look_eq h, hf]

theorem overview_and_matches (h : s.database.Kept Store.Sound) :
    ∃ v ts rs, s.database.store.settings? = .ok v ∧ s.database.store.allTags = .ok ts ∧
      s.database.store.allRoles = .ok rs ∧
      App.overview s = (.ok (s.database.store.roster.map fun c =>
        Matching.character c ts rs ⟨v.tagIds, v.roleIds⟩), s) ∧
      ∀ id, App.characterMatches id s =
        match s.database.store.character? id with
        | some c => (.ok (Matching.character c ts rs ⟨v.tagIds, v.roleIds⟩), s)
        | none => (.error (.failed (.new s!"Character {id} not found")), s) := by
  obtain ⟨v, hv⟩ := h.store.settings_ok
  obtain ⟨ts, hts⟩ := h.store.allTags_ok
  obtain ⟨rs, hrs⟩ := h.store.allRoles_ok
  refine ⟨v, ts, rs, hv, hts, hrs, look_ok h _ ?_, fun id => ?_⟩
  · rw [matchesOfAll, savedFilter, hv, hts, hrs]
    rfl
  · rw [characterMatches]
    cases hc : s.database.store.character? id with
    | none =>
      have hm : matchesOf id s.database.store = .ok none := by rw [matchesOf, hc]
      rw [bind_of_ok (look_ok h _ hm)]
      rfl
    | some c =>
      have hm : matchesOf id s.database.store =
          .ok (some (Matching.character c ts rs ⟨v.tagIds, v.roleIds⟩)) := by
        rw [matchesOf, hc, savedFilter, hv, hts, hrs]
        rfl
      rw [bind_of_ok (look_ok h _ hm)]
      rfl

/-- The overview has one entry for each stored character, in the order of names and ids, and the
matches of one character are its entry: there are none just when there is no entry. -/
theorem overview_agrees_with_characterMatches (h : s.database.Reachable) :
    ∃ (ms : List CharacterMatches) (rows : List (Int × CharacterRow)), App.overview s = (.ok ms, s) ∧
      rows.Perm s.database.store.characters.toList ∧
      (rows.Pairwise fun a b => (Text.collate a.2.name b.2.name).then (compare a.1 b.1) = .lt) ∧
      ms.map (·.characterId) = rows.map (·.1) ∧
      ∀ id, App.characterMatches id s =
        match ms.find? fun m => m.characterId = id with
        | some m => (.ok m, s)
        | none => (.error (.failed (.new s!"Character {id} not found")), s) := by
  have hs := h.sound
  obtain ⟨v, ts, rs, -, -, -, hoverview, hmatches⟩ := overview_and_matches hs
  refine ⟨_, s.database.store.ranked, hoverview, Store.ranked_perm _, Store.pairwise_ranked _, ?_,
    fun id => ?_⟩
  · rw [List.map_map, ← hs.store.map_id_roster]
    rfl
  · rw [hmatches, List.find?_map]
    have hfind : (fun m : CharacterMatches => decide (m.characterId = id)) ∘
        (fun c => Matching.character c ts rs ⟨v.tagIds, v.roleIds⟩) =
        fun c => decide (c.character.id = id) := rfl
    rw [hfind, hs.store.find?_roster]
    cases s.database.store.character? id <;> rfl

def pair : Store.Action Unit := do
  Store.putCorporation ⟨1, none, "Caldari Navy", "CN", ""⟩
  Store.putCharacter ⟨0, 0⟩ ⟨9, "anna", "", 1⟩
  Store.putCharacter ⟨0, 0⟩ ⟨4, "Annb", "", 1⟩
  Store.putSkill ⟨4, 3300, 5⟩

theorem operation_pair : Store.Operation pair :=
  .next (.putCorporation _) fun _ => .next (.putCharacter ..) fun _ => .next (.putCharacter ..) fun _ =>
    .putSkill _

def pairSession : Session Unit := ⟨⟨.empty, none, ()⟩, (Database.run pair .fresh).2, .info⟩

theorem overview_of_pair :
    pairSession.database.Reachable ∧
    ∃ ms : List CharacterMatches, App.overview pairSession = (.ok ms, pairSession) ∧
      ms.map (·.characterId) = [9, 4] ∧
      App.characterMatches 5 pairSession =
        (.error (.failed (.new "Character 5 not found")), pairSession) := by
  have hr : pairSession.database.Reachable := .run .fresh operation_pair
  obtain ⟨ms, rows, hms, hrows, hsort, hids, hmatches⟩ := overview_agrees_with_characterMatches hr
  have hlist : pairSession.database.store.characters.toList =
      [(4, ⟨"Annb", "", 1, "1970-01-01 00:00:00", Table.empty.insert 3300 5, none⟩),
        (9, ⟨"anna", "", 1, "1970-01-01 00:00:00", .empty, none⟩)] := rfl
  have hname : Text.collate "Annb" "anna" = .gt := by decide
  rw [hlist, List.perm_pair] at hrows
  have hms' : ms.map (·.characterId) = [9, 4] := by
    obtain rfl | rfl := hrows
    · simp [hname] at hsort
    · exact hids
  refine ⟨hr, ms, hms, hms', ?_⟩
  have hfind : (ms.find? fun m => m.characterId = 5) = none := by
    rw [List.find?_eq_none]
    intro m hm
    have hmem : m.characterId ∈ ms.map (·.characterId) := List.mem_map_of_mem hm
    rw [hms'] at hmem
    simp only [decide_eq_true_eq]
    rintro h5
    simp [h5] at hmem
  rw [hmatches, hfind]
  rfl

end App

end Muster
