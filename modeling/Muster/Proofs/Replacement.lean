import Muster.Proofs.InstantText
import Muster.Proofs.Renewal

/-! A snapshot that is stored replaces all that was stored of its character, and no row of another. -/

namespace Muster

/-- A store with another time at which a character was stored. -/
def Store.stamped (t : Store) (id : Int) (now : Instant) : Store :=
  { t with characters := t.characters.adjust id fun row => { row with updatedAt := now.stampText } }

namespace Snapshot

variable {s : Snapshot} {now later : Instant} {id : Int} {token : Token} {t : Store}

theorem Holds.token? (h : s.Holds now id token t)
    (hyear : 0 ≤ token.expiration.year ∧ token.expiration.year ≤ 9999)
    (hleap : token.expiration.isLeap = true → token.expiration.seconds % 60 = 59) :
    t.token? id =
      .ok (some ({ token with expiration := token.expiration.truncate }.forCharacter id)) := by
  obtain ⟨skills, hrow, -⟩ := h.character
  have hstored : (t.characters.get? id).bind (·.token) = some ⟨token.accessToken, token.refreshToken,
      token.tokenType, token.expiration.secondsText⟩ := by
    rw [hrow, Option.bind_some]
  exact Store.token?_of_stored hstored (Instant.read?_secondsText hyear hleap)

theorem Holds.stamped (h : s.Holds now id token t) (later : Instant) :
    s.Holds later id token (t.stamped id later) where
  character := by
    obtain ⟨skills, hrow, hskills⟩ := h.character
    exact ⟨skills, by rw [Store.stamped, Table.get?_adjust, if_pos rfl, hrow]; rfl, hskills⟩
  corporation := h.corporation
  alliance := h.alliance

theorem apart_stamped (s : Snapshot) (id : Int) (t : Store) (later : Instant) :
    s.Apart id t (t.stamped id later) where
  characters i hi := by rw [Store.stamped, Table.get?_adjust, if_neg hi]
  corporations _ _ := rfl
  alliances _ _ := rfl
  tags := rfl
  roles := rfl
  settings := rfl
  skillNames := rfl
  lastTag := rfl
  lastRole := rfl

theorem stale_levels (s : Snapshot) : Store.stale s.levels s.skillIds = [] := by
  refine List.filter_eq_nil_iff.2 fun k hk => ?_
  have hlisted := Table.mem_keys.1 hk
  rw [levels, Table.contains_ofList, List.any_eq_true] at hlisted
  obtain ⟨e, he, hek⟩ := hlisted
  have hmem : k ∈ s.skillIds := of_decide_eq_true hek ▸ List.mem_map_of_mem he
  simpa using hmem

theorem fits_settled (s : Snapshot) (now : Instant) (id : Int) (row : TokenRow) (d : Database) :
    s.Fits id (s.settled now id row d) := by
  have htable : (s.settle now id row d.store).skillTable id = s.levels := by
    rw [Store.skillTable, s.get?_settle]
    rfl
  rw [Fits, settled, htable, Store.Droppable, stale_levels]
  decide

/-- Stored again, a snapshot changes only the time at which the character was stored. -/
theorem settle_settle (s : Snapshot) (now later : Instant) (id : Int) (token : Token) (t : Store) :
    s.settle later id (token.forCharacter id) (s.settle now id (token.forCharacter id) t) =
      (s.settle now id (token.forCharacter id) t).stamped id later :=
  (s.holds_settle later id token _).eq ((s.holds_settle now id token t).stamped later)
    ((s.apart_settle later id _ _).symm.trans (s.apart_stamped id _ later))

theorem settle_stamped (s : Snapshot) (now : Instant) (id : Int) (token : Token) (t : Store) :
    (s.settle now id (token.forCharacter id) t).stamped id now =
      s.settle now id (token.forCharacter id) t :=
  ((s.holds_settle now id token t).stamped now).eq (s.holds_settle now id token t)
    (s.apart_stamped id _ now).symm

/-- A snapshot that fits is stored with a token of its character in any reachable database. The rows of
the character, of its corporation and of its alliance then say what the snapshot and the token do, and all
other rows are as they were. Storing both again changes nothing but the time at which that was done, and
whatever was stored of the character before, what is stored of it then is the same. A snapshot that does
not fit leaves everything as it was. -/
theorem store_replaces_character (s : Snapshot) (now : Instant) (id : Int) (token : Token) {d : Database}
    (hd : d.Reachable) :
    if s.Fits id d then
      ∃ t, s.store now id (token.forCharacter id) d = (.ok (s.data id), { d with store := t }) ∧
        s.Replaces now id token d.store t ∧
        ((0 ≤ token.expiration.year ∧ token.expiration.year ≤ 9999) →
          (token.expiration.isLeap = true → token.expiration.seconds % 60 = 59) →
          t.token? id =
            .ok (some ({ token with expiration := token.expiration.truncate }.forCharacter id))) ∧
        (∀ later, s.store later id (token.forCharacter id) { d with store := t } =
          (.ok (s.data id), { d with store := t.stamped id later })) ∧
        t.stamped id now = t ∧
        ∀ e : Database, e.Reachable → s.Fits id e →
          ∃ u, s.store now id (token.forCharacter id) e = (.ok (s.data id), { e with store := u }) ∧
            u.characters.get? id = t.characters.get? id ∧ u.character? id = t.character? id ∧
            (s.Apart id d.store e.store → u = t)
    else s.store now id (token.forCharacter id) d = (.error (s.overflow id d), d) := by
  let row := token.forCharacter id
  have hrow : row.characterId = id := rfl
  split
  · have hreplaces (t : Store) := s.replaces_settle now id token t
    refine ⟨s.settle now id row d.store, s.store_eq hd.sound now hrow ‹_›, hreplaces _,
      (hreplaces _).holds.token?, fun later => ?_, s.settle_stamped now id token d.store,
      fun e he hfits => ⟨s.settle now id row e.store, s.store_eq he.sound now hrow hfits,
        (hreplaces _).holds.row_eq (hreplaces _).holds, ?_, fun hsame => ?_⟩⟩
    · have hd' : (s.settled now id row d).Kept fun _ => True := hd.sound.of_store trivial
      refine (s.store_eq hd' later hrow (s.fits_settled now id row d)).trans ?_
      rw [settled, settled]
      dsimp only
      rw [s.settle_settle now later id token d.store]
    · rw [(hreplaces _).read, (hreplaces _).read]
    · exact (hreplaces _).holds.eq (hreplaces _).holds
        ((hreplaces e.store).apart.symm.trans (hsame.symm.trans (hreplaces d.store).apart))
  · exact s.store_refused hd.sound now hrow ‹_›

def barracks : Store.Action Unit := do
  Store.putCorporation ⟨500, none, "Caldari Navy", "CN", ""⟩
  Store.putCharacter ⟨0, 0⟩ ⟨1, "Ada", "", 500⟩
  Store.putCharacter ⟨0, 0⟩ ⟨2, "Bea", "", 500⟩
  Store.putSkill ⟨1, 3300, 3⟩
  Store.putSkill ⟨1, 3301, 5⟩

theorem operation_barracks : Store.Operation barracks :=
  .next (.putCorporation _) fun _ => .next (.putCharacter ..) fun _ => .next (.putCharacter ..) fun _ =>
    .next (.putSkill _) fun _ => .putSkill _

def promotion : Snapshot :=
  ⟨⟨"Ada", 501, none⟩, ⟨"", "", "", ""⟩, ⟨"Perkone", "PERK", some 99⟩, ⟨"", "", ""⟩,
    some (99, ⟨"Templis", "TMPL"⟩, ⟨"", ""⟩), ⟨[⟨3300, 4, 4, 0⟩, ⟨3300, 5, 5, 0⟩], 0⟩⟩

theorem promotion_replaces_ada :
    let d := (Database.run barracks .fresh).2
    let row := Syncer.fleetToken.forCharacter 1
    d.Reachable ∧ promotion.Fits 1 d ∧ d.store.skillsOf 1 = [⟨1, 3300, 3⟩, ⟨1, 3301, 5⟩] ∧
      ∃ t, promotion.store ⟨1000, 0⟩ 1 row d = (.ok (promotion.data 1), { d with store := t }) ∧
        t.character? 1 = some ⟨⟨1, "Ada", "", 501⟩, ⟨501, some 99, "Perkone", "PERK", ""⟩,
          some ⟨99, "Templis", "TMPL", ""⟩, [⟨1, 3300, 5⟩]⟩ ∧
        t.token? 1 = .ok (some row) ∧ t.characters.get? 2 = d.store.characters.get? 2 ∧
        promotion.store ⟨1000, 0⟩ 1 row { d with store := t } =
          (.ok (promotion.data 1), { d with store := t }) ∧
        promotion.store ⟨4600, 0⟩ 1 row { d with store := t } =
          (.ok (promotion.data 1), { d with store := t.stamped 1 ⟨4600, 0⟩ }) := by
  intro d row
  have hd : d.Reachable := .run .fresh operation_barracks
  have hfits : promotion.Fits 1 d := by decide +kernel
  have hstored := store_replaces_character promotion ⟨1000, 0⟩ 1 Syncer.fleetToken hd
  rw [if_pos hfits] at hstored
  obtain ⟨t, hstore, hreplaces, htoken, hlater, hsame, -⟩ := hstored
  have hagain := hlater ⟨1000, 0⟩
  rw [hsame] at hagain
  exact ⟨hd, hfits, rfl, t, hstore, hreplaces.read, htoken (by decide +kernel) nofun,
    hreplaces.apart.characters 2 (by decide), hagain, hlater ⟨4600, 0⟩⟩

end Snapshot

end Muster
