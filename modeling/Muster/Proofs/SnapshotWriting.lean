import Muster.Proofs.TagWriting
import Muster.Sync.Snapshot

/-! Writing a snapshot leaves of its character just what it says, whatever was stored before. -/

namespace Muster

namespace Store

def withCharacter (s : Store) (id : Int) (row : CharacterRow) : Store :=
  { s with characters := s.characters.insert id row }

def stored (t : TokenRow) : StoredToken :=
  ⟨t.accessToken, t.refreshToken, t.tokenType, t.expiration.secondsText⟩

theorem putCorporation_eq {s : Store} {c : Corporation}
    (h : c.allianceId.all s.alliances.contains = true) :
    putCorporation c s = (.ok (), { s with
      corporations := s.corporations.insert c.id ⟨c.allianceId, c.name, c.ticker, c.picture⟩ }) := by
  rw [putCorporation, get_bind_apply, h]
  rfl

theorem putCharacter_eq {s : Store} {c : Character} (now : Instant)
    (h : s.corporations.contains c.corporationId = true) :
    putCharacter now c s = (.ok (), s.withCharacter c.id
      ⟨c.name, c.picture, c.corporationId, now.stampText, s.skillTable c.id,
        (s.characters.get? c.id).bind (·.token)⟩) := by
  rw [putCharacter, get_bind_apply, h]
  rfl

section

variable {s : Store} {id : Int} {row : CharacterRow}

theorem changeCharacter_withCharacter (f : CharacterRow → CharacterRow) :
    changeCharacter id f (s.withCharacter id row) = (.ok (), s.withCharacter id (f row)) := by
  refine Prod.ext rfl ?_
  change { s with characters := (s.characters.insert id row).adjust id f } = _
  rw [Table.insert_adjust]
  rfl

theorem contains_withCharacter : (s.withCharacter id row).characters.contains id = true := by
  simp [withCharacter]

theorem putToken_eq {t : TokenRow} (h : t.characterId = id) :
    putToken t (s.withCharacter id row) =
      (.ok (), s.withCharacter id { row with token := some (stored t) }) := by
  subst h
  rw [putToken, putStoredToken, get_bind_apply, contains_withCharacter]
  exact changeCharacter_withCharacter _

theorem forM_putSkill (levels : List (Int × Int)) :
    (levels.map fun e => CharacterSkill.mk id e.1 e.2).forM putSkill (s.withCharacter id row) =
      (.ok (), s.withCharacter id { row with
        skills := levels.foldl (fun t e => t.insert e.1 e.2) row.skills }) := by
  induction levels generalizing row with
  | nil => rfl
  | cons e levels ih =>
    have hput : putSkill ⟨id, e.1, e.2⟩ (s.withCharacter id row) =
        (.ok (), s.withCharacter id { row with skills := row.skills.insert e.1 e.2 }) := by
      rw [putSkill, get_bind_apply, contains_withCharacter]
      exact changeCharacter_withCharacter _
    rw [List.map_cons, List.forM, bind_of_ok hput, ih]
    rfl

theorem skillTable_withCharacter : (s.withCharacter id row).skillTable id = row.skills := by
  simp [skillTable, withCharacter]

theorem dropSkills_eq (s : Store) (id : Int) (row : CharacterRow) {keys : List Int}
    (h : keys.length < variableLimit) :
    ∃ n, dropSkills id keys (s.withCharacter id row) =
      (.ok n, s.withCharacter id { row with skills := apart keys row.skills }) :=
  ⟨_, dropKeys_eq h (changeCharacter_withCharacter _)⟩

theorem replaceSkills_bind {α : Type} (s : Store) (id : Int) (row : CharacterRow)
    {levels : List (Int × Int)}
    (hfew : Droppable row.skills (levels.map (·.1))) (rest : Action α) :
    ((levels.map fun e => CharacterSkill.mk id e.1 e.2).forM putSkill >>= fun _ =>
      dropSkills id (stale row.skills (levels.map (·.1))) >>= fun _ => rest) (s.withCharacter id row) =
      rest (s.withCharacter id { row with skills := .ofList levels }) := by
  obtain ⟨n, hdrop⟩ := dropSkills_eq s id
    { row with skills := levels.foldl (fun t e => t.insert e.1 e.2) row.skills } hfew
  rw [bind_of_ok (forM_putSkill levels), bind_of_ok hdrop, apart_stale]

theorem replaceSkills_refused {α : Type} (s : Store) (id : Int) (row : CharacterRow)
    {levels : List (Int × Int)}
    (hmany : ¬Droppable row.skills (levels.map (·.1))) (rest : Action α) :
    ∃ t, ((levels.map fun e => CharacterSkill.mk id e.1 e.2).forM putSkill >>= fun _ =>
      dropSkills id (stale row.skills (levels.map (·.1))) >>= fun _ => rest) (s.withCharacter id row) =
      (.error (refusal skillsStatement (stale row.skills (levels.map (·.1))).length 1), t) := by
  rw [bind_of_ok (forM_putSkill levels)]
  exact ⟨_, bind_of_error (dropKeys_refused (Nat.le_of_not_lt hmany))⟩

end

end Store

namespace Snapshot

section

variable (s : Snapshot) (now : Instant) (id : Int) (token : TokenRow) (store : Store)

def trained : List (Int × Int) := s.skills.skills.map fun k => (k.id, k.trained)

/-- Of a skill that is reported more than once the last level counts. -/
def levels : Table Int Int := .ofList s.trained

def skillIds : List Int := s.trained.map (·.1)

def row (skills : Table Int Int) : CharacterRow :=
  ⟨s.person.name, s.portrait.px128, s.person.corporationId, now.stampText, skills,
    some (Store.stored token)⟩

def settleCorporation : Store :=
  { store with
    alliances := match s.allianceRow with
      | none => store.alliances
      | some a => store.alliances.insert a.id ⟨a.name, a.ticker, a.picture⟩
    corporations := store.corporations.insert s.corporationRow.id
      ⟨s.corporationRow.allianceId, s.corporationRow.name, s.corporationRow.ticker,
        s.corporationRow.picture⟩ }

def settle : Store :=
  (s.settleCorporation store).withCharacter id (s.row now token s.levels)

def data : CharacterData :=
  ⟨s.characterRow id, s.corporationRow, s.allianceRow,
    s.levels.toList.map fun (skill, level) => ⟨id, skill, level⟩⟩

theorem allianceId_corporationRow : s.corporationRow.allianceId = s.allianceRow.map (·.id) := by
  rw [corporationRow, allianceRow, Option.map_map]
  rfl

theorem get?_settle : (s.settle now id token store).characters.get? id =
    some (s.row now token s.levels) := by
  simp [settle, Store.withCharacter]

theorem get?_settle_of_ne {id id' : Int} (h : id' ≠ id) (t : Store) :
    (s.settle now id token t).characters.get? id' = t.characters.get? id' := by
  simp [settle, settleCorporation, Store.withCharacter, h]

theorem character?_settle : (s.settle now id token store).character? id = some (s.data id) := by
  have hrow := s.get?_settle now id token store
  have hcorporation : (s.settle now id token store).corporation?
      (s.row now token s.levels).corporationId = some s.corporationRow := by
    simp [Store.corporation?, settle, settleCorporation, Store.withCharacter, corporationRow, row]
  have halliance : (s.corporationRow.allianceId.bind (s.settle now id token store).alliance?) =
      s.allianceRow := by
    rw [allianceId_corporationRow]
    cases ha : s.allianceRow <;>
      simp [Store.alliance?, settle, settleCorporation, Store.withCharacter, ha]
  rw [Store.character?, hrow, Option.bind_some, Store.join, hcorporation, Option.map_some,
    Option.map_some, halliance, Store.skillsOf, Store.skillTable, hrow]
  rfl

theorem putAlliance_eq : s.allianceRow.forM Store.putAlliance store =
    (.ok (), { store with alliances := (s.settleCorporation store).alliances }) := by
  rw [settleCorporation]
  cases s.allianceRow <;> rfl

/-- Before the skills are written the character has those that it had. -/
theorem put_eq_skills (h : token.characterId = id) :
    s.put now id token store =
      ((s.trained.map fun e => CharacterSkill.mk id e.1 e.2).forM Store.putSkill >>= fun _ =>
        Store.dropSkills id (Store.stale (store.skillTable id) s.skillIds) >>= fun _ => do
          match (← get).character? id with
          | some data => return data
          | none => throw (.engine .noRows))
        ((s.settleCorporation store).withCharacter id (s.row now token (store.skillTable id))) := by
  have hcorporation : Store.putCorporation s.corporationRow
      { store with alliances := (s.settleCorporation store).alliances } =
        (.ok (), s.settleCorporation store) := by
    refine Store.putCorporation_eq ?_
    rw [allianceId_corporationRow]
    cases ha : s.allianceRow <;> simp [settleCorporation, ha]
  have hcharacter : Store.putCharacter now (s.characterRow id) (s.settleCorporation store) =
      (.ok (), (s.settleCorporation store).withCharacter id ⟨s.person.name, s.portrait.px128,
        s.person.corporationId, now.stampText, store.skillTable id,
        (store.characters.get? id).bind (·.token)⟩) :=
    Store.putCharacter_eq now (by simp [settleCorporation, corporationRow, characterRow])
  have hrows : s.skillRows id = s.trained.map fun e => .mk id e.1 e.2 := by
    rw [skillRows, trained, List.map_map]
    rfl
  have hids : s.skills.skills.map (·.id) = s.skillIds := by
    rw [skillIds, trained, List.map_map]
    rfl
  rw [put, bind_of_ok (s.putAlliance_eq store), bind_of_ok hcorporation,
    bind_of_ok hcharacter, bind_of_ok (Store.putToken_eq h), get_bind_apply]
  dsimp only
  rw [hrows, ← Store.stale_map, hids, Store.skillTable_withCharacter]
  rfl

/-- A snapshot is written when the token is one of its character and the skills that are to go are few, and
then nothing of what was known of the character is left. -/
theorem put_eq (h : token.characterId = id)
    (hfew : Store.Droppable (store.skillTable id) s.skillIds) :
    s.put now id token store = (.ok (s.data id), s.settle now id token store) := by
  have hsettled : (s.settleCorporation store).withCharacter id
      { s.row now token (store.skillTable id) with skills := .ofList s.trained } =
      s.settle now id token store := rfl
  rw [put_eq_skills _ _ _ _ _ h]
  refine (Store.replaceSkills_bind _ id (s.row now token (store.skillTable id)) hfew _).trans ?_
  rw [hsettled, get_bind_apply, character?_settle]
  rfl

theorem put_refused (h : token.characterId = id)
    (hmany : ¬Store.Droppable (store.skillTable id) s.skillIds) :
    ∃ t, s.put now id token store = (.error (Store.refusal Store.skillsStatement
      (Store.stale (store.skillTable id) s.skillIds).length 1), t) := by
  rw [put_eq_skills _ _ _ _ _ h]
  exact Store.replaceSkills_refused _ id (s.row now token (store.skillTable id)) hmany _

end

section

/-- The last level that is reported for a skill. -/
def Reports (s : Snapshot) (skill level : Int) : Prop :=
  ∃ before r after, s.skills.skills = before ++ r :: after ∧ r.id = skill ∧ r.trained = level ∧
    ∀ r' ∈ after, r'.id ≠ skill

/-- The rows that say of a character just what a snapshot and a token do, since some time. -/
structure Holds (s : Snapshot) (now : Instant) (id : Int) (token : Token) (t : Store) : Prop where
  character : ∃ skills, t.characters.get? id = some ⟨s.person.name, s.portrait.px128,
      s.person.corporationId, now.stampText, skills, some ⟨token.accessToken, token.refreshToken,
        token.tokenType, token.expiration.secondsText⟩⟩ ∧
    ∀ skill level, skills.get? skill = some level ↔ s.Reports skill level
  corporation : t.corporations.get? s.person.corporationId =
    some ⟨s.alliance.map (·.1), s.corporation.name, s.corporation.ticker, s.corporationIcons.px64⟩
  alliance : ∀ a data icons, s.alliance = some (a, data, icons) →
    t.alliances.get? a = some ⟨data.name, data.ticker, icons.px64⟩

/-- Two stores have the same rows but for those that a snapshot of a character is stored in. -/
structure Apart (s : Snapshot) (id : Int) (t u : Store) : Prop where
  characters : ∀ i, i ≠ id → u.characters.get? i = t.characters.get? i
  corporations : ∀ i, i ≠ s.person.corporationId → u.corporations.get? i = t.corporations.get? i
  alliances : ∀ i, i ∉ s.alliance.map (·.1) → u.alliances.get? i = t.alliances.get? i
  tags : u.tags = t.tags
  roles : u.roles = t.roles
  settings : u.settings = t.settings
  skillNames : u.skillNames = t.skillNames
  lastTag : u.lastTag = t.lastTag
  lastRole : u.lastRole = t.lastRole

/-- A store that has a snapshot and a token of a character in place of what it had of it, and nothing else
that is new. -/
structure Replaces (s : Snapshot) (now : Instant) (id : Int) (token : Token) (t u : Store) : Prop where
  holds : s.Holds now id token u
  apart : s.Apart id t u
  read : u.character? id = some (s.data id)

variable {s : Snapshot} {now : Instant} {id : Int} {token : Token} {t u v : Store}

theorem get?_levels {skill level : Int} :
    s.levels.get? skill = some level ↔ s.Reports skill level := by
  rw [levels, trained, Table.get?_ofList_eq_some]
  constructor
  · rintro ⟨before, after, hlist, hlast⟩
    obtain ⟨before, rest, hskills, rfl, hrest⟩ := List.map_eq_append_iff.1 hlist
    obtain ⟨r, after, rfl, hr, rfl⟩ := List.map_eq_cons_iff.1 hrest
    cases hr
    exact ⟨before, r, after, hskills, rfl, rfl, fun r' hr' => hlast _ (List.mem_map_of_mem hr')⟩
  · rintro ⟨before, r, after, hlist, rfl, rfl, hlast⟩
    refine ⟨_, _, by rw [hlist, List.map_append, List.map_cons], fun e he => ?_⟩
    obtain ⟨r', hr', rfl⟩ := List.mem_map.1 he
    exact hlast r' hr'

namespace Apart

theorem symm (h : s.Apart id t u) : s.Apart id u t where
  characters i hi := (h.characters i hi).symm
  corporations i hi := (h.corporations i hi).symm
  alliances i hi := (h.alliances i hi).symm
  tags := h.tags.symm
  roles := h.roles.symm
  settings := h.settings.symm
  skillNames := h.skillNames.symm
  lastTag := h.lastTag.symm
  lastRole := h.lastRole.symm

theorem trans (h : s.Apart id t u) (h' : s.Apart id u v) : s.Apart id t v where
  characters i hi := (h'.characters i hi).trans (h.characters i hi)
  corporations i hi := (h'.corporations i hi).trans (h.corporations i hi)
  alliances i hi := (h'.alliances i hi).trans (h.alliances i hi)
  tags := h'.tags.trans h.tags
  roles := h'.roles.trans h.roles
  settings := h'.settings.trans h.settings
  skillNames := h'.skillNames.trans h.skillNames
  lastTag := h'.lastTag.trans h.lastTag
  lastRole := h'.lastRole.trans h.lastRole

end Apart

theorem holds_settle (s : Snapshot) (now : Instant) (id : Int) (token : Token) (t : Store) :
    s.Holds now id token (s.settle now id (token.forCharacter id) t) where
  character := ⟨s.levels, s.get?_settle now id _ t, fun _ _ => get?_levels⟩
  corporation := by
    simp [settle, settleCorporation, Store.withCharacter, corporationRow]
  alliance a data icons ha := by
    simp [settle, settleCorporation, Store.withCharacter, allianceRow, ha]

theorem apart_settle (s : Snapshot) (now : Instant) (id : Int) (row : TokenRow) (t : Store) :
    s.Apart id t (s.settle now id row t) where
  characters i hi := s.get?_settle_of_ne now row hi t
  corporations i hi := by
    simp [settle, settleCorporation, Store.withCharacter, corporationRow, hi]
  alliances i hi := by
    cases ha : s.alliance with
    | none => simp [settle, settleCorporation, Store.withCharacter, allianceRow, ha]
    | some a =>
      have hne : i ≠ a.1 := by simpa [ha, eq_comm] using hi
      simp [settle, settleCorporation, Store.withCharacter, allianceRow, ha, hne]
  tags := rfl
  roles := rfl
  settings := rfl
  skillNames := rfl
  lastTag := rfl
  lastRole := rfl

theorem replaces_settle (s : Snapshot) (now : Instant) (id : Int) (token : Token) (t : Store) :
    s.Replaces now id token t (s.settle now id (token.forCharacter id) t) :=
  ⟨s.holds_settle now id token t, s.apart_settle now id _ t, s.character?_settle now id _ t⟩

/-- A put replaces the character, or is refused for the skills that it would have to drop. -/
theorem put_cases {row : TokenRow} {r : Except StoreError CharacterData} (hrow : row.characterId = id)
    (hput : s.put now id row t = (r, u)) :
    (r = .ok (s.data id) ∧ s.Replaces now id row.toToken t u) ∨
      ¬Store.Droppable (t.skillTable id) s.skillIds ∧ r = .error (Store.refusal Store.skillsStatement
        (Store.stale (t.skillTable id) s.skillIds).length 1) := by
  by_cases hfew : Store.Droppable (t.skillTable id) s.skillIds
  · cases (put_eq s now id row t hrow hfew).symm.trans hput
    cases hrow
    exact .inl ⟨rfl, s.replaces_settle now row.characterId row.toToken t⟩
  · obtain ⟨_, hrefused⟩ := s.put_refused now id row t hrow hfew
    cases hrefused.symm.trans hput
    exact .inr ⟨hfew, rfl⟩

theorem Holds.row_eq (ht : s.Holds now id token t) (hu : s.Holds now id token u) :
    t.characters.get? id = u.characters.get? id := by
  obtain ⟨skills, hrow, hskills⟩ := ht.character
  obtain ⟨skills', hrow', hskills'⟩ := hu.character
  have hsame : skills = skills' := Table.ext_get? fun k =>
    Option.ext fun level => (hskills k level).trans (hskills' k level).symm
  rw [hrow, hrow', hsame]

theorem Holds.eq (ht : s.Holds now id token t) (hu : s.Holds now id token u) (h : s.Apart id t u) : t = u := by
  have hcharacters : t.characters = u.characters := Table.ext_get? fun i => by
    by_cases hi : i = id
    · rw [hi, ht.row_eq hu]
    · exact (h.characters i hi).symm
  have hcorporations : t.corporations = u.corporations := Table.ext_get? fun i => by
    by_cases hi : i = s.person.corporationId
    · rw [hi, ht.corporation, hu.corporation]
    · exact (h.corporations i hi).symm
  have halliances : t.alliances = u.alliances := Table.ext_get? fun i => by
    by_cases hi : i ∈ s.alliance.map (·.1)
    · obtain ⟨⟨_, data, icons⟩, ha, rfl⟩ := Option.map_eq_some_iff.1 hi
      rw [ht.alliance _ data icons ha, hu.alliance _ data icons ha]
    · exact (h.alliances i hi).symm
  cases t
  cases u
  congr
  · exact h.settings.symm
  · exact h.tags.symm
  · exact h.roles.symm
  · exact h.skillNames.symm
  · exact h.lastTag.symm
  · exact h.lastRole.symm

end

end Snapshot

end Muster
