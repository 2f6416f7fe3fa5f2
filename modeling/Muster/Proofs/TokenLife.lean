import Muster.Login.Grant
import Muster.Proofs.InstantText
import Muster.Proofs.Renewal

/-! How long a token may live: to be made at all it has to end within the calendar, and to be read back
once it is stored, in a year of four digits. -/

namespace Muster

namespace Instant

/-- What a clock can tell: a year of the calendar, and leap seconds only at the end of a minute. -/
structure Clocked (t : Instant) : Prop where
  year : -262143 ≤ t.year ∧ t.year ≤ 262142
  nanos : t.nanos < 2 * billion
  leap : t.isLeap = true → t.seconds % 60 = 59

variable {t : Instant}

theorem seconds_bounds (h : -262143 ≤ t.year ∧ t.year ≤ 262142) :
    -0x10000000000000 ≤ t.seconds ∧ t.seconds ≤ 0x10000000000000 := by
  obtain ⟨hbegin, hend⟩ := Date.yearOf_spec t.day
  -- The first days of the year and of the next one bound the day, and with it the seconds.
  change -262143 ≤ Date.yearOf t.day ∧ Date.yearOf t.day ≤ 262142 at h
  rw [Date.beforeYear] at hbegin hend
  rw [day, epochDay] at *
  omega

/-- No span within the calendar is too long to be counted in milliseconds. -/
theorem Clocked.span_fits (h : t.Clocked) {n : Int}
    (he : -262143 ≤ (t.addSeconds n).year ∧ (t.addSeconds n).year ≤ 262142) :
    n.natAbs ≤ 0x7FFFFFFFFFFFFFFF / 1000 := by
  have hnow := seconds_bounds h.year
  have hend := seconds_bounds he
  simp only [addSeconds] at hend
  split at hend
  · omega
  · split at hend
    · dsimp only at hend
      split at hend <;> omega
    · dsimp only at hend
      omega

theorem Clocked.leap_addSeconds (h : t.Clocked) {n : Int} (hleap : (t.addSeconds n).isLeap = true) :
    (t.addSeconds n).seconds % 60 = 59 := by
  by_cases hn : n = 0
  · rw [addSeconds, if_pos hn] at hleap ⊢
    exact h.leap hleap
  · have hnever : (t.addSeconds n).isLeap = false := by
      have hnanos := h.nanos
      cases hl : t.isLeap with
      | true =>
        rw [addSeconds, if_neg hn, if_pos hl, isLeap, decide_eq_false_iff_not]
        dsimp only
        omega
      | false =>
        rw [addSeconds, if_neg hn, hl]
        exact hl
    rw [hnever] at hleap
    cases hleap

end Instant

namespace TokenAnswer

/-- A token is made unless it would end in a year that no calendar reaches. -/
theorem toToken_eq (a : TokenAnswer) {now : Instant} (h : now.Clocked) :
    let e := now.addSeconds a.expiresIn
    a.toToken now = if -262143 ≤ e.year ∧ e.year ≤ 262142 then
      .ok ⟨a.accessToken, a.refreshToken, a.tokenType, e⟩ else .error (.overflow a.expiresIn) := by
  dsimp only
  rw [toToken, expiration]
  by_cases he : -262143 ≤ (now.addSeconds a.expiresIn).year ∧ (now.addSeconds a.expiresIn).year ≤ 262142
  · rw [if_pos he, if_pos ⟨h.span_fits he, he⟩]
    rfl
  · rw [if_neg he, if_neg fun h => he h.2]
    rfl

theorem toToken_eq_ok {a : TokenAnswer} {now : Instant} {t : Token} (h : a.toToken now = .ok t) :
    t = ⟨a.accessToken, a.refreshToken, a.tokenType, now.addSeconds a.expiresIn⟩ := by
  rw [toToken, expiration] at h
  split at h
  · cases h
    rfl
  · cases h

def lasting (lifetime : Int) : TokenAnswer := ⟨"access", lifetime, "Bearer", "refresh"⟩

end TokenAnswer

theorem Grant.carry_secret (g : Grant) (t : Token) :
    ∃ secret, g.carry t = { t with refreshToken := secret } := by
  cases g with
  | code => exact ⟨t.refreshToken, rfl⟩
  | refresh old =>
    rw [carry]
    split
    · exact ⟨old, rfl⟩
    · exact ⟨t.refreshToken, rfl⟩

theorem Keychain.stow_secret {σ : Type} (v : Vault σ) (row : TokenRow) (k : Keychain σ) :
    ∃ secret, (stow v row k).1 = { row with refreshToken := secret } := by
  obtain h | ⟨h, -⟩ := stow_cases v row k
  · exact ⟨row.refreshToken, h⟩
  · exact ⟨"", h⟩

def Store.unreadableEnd : StoreError := .invalidValue "expiration" "not a time in RFC 3339"

namespace Syncer

variable {ω σ : Type}

def Synced (y : Syncer ω) (token : Token) (id : Int) (c c' : Scene ω) : Prop :=
  ∃ data, y.refreshWith token id c = (.ok data, c') ∨
    ∃ c₀, y.loadToken id c = (.ok token, c₀) ∧ y.refresh id c = (.ok data, c')

section

variable {y : Syncer ω} {token : Token} {id : Int} {c c' : Scene ω} {P : Store → Prop}

theorem Ends.stored_token {data : CharacterData} (h : y.Ends token id c (.ok data, c'))
    (howner : ∀ w, (y.stow (token.forCharacter id) w).1.characterId = id) :
    ∃ v, (c'.database.store.characters.get? id).bind (·.token) =
      some (Store.stored (y.stow (token.forCharacter id) v).1) := by
  generalize hr : (Except.ok data, c') = r at h
  cases h with
  | @stored s v _ _ row _ t names _ _ hstow _ hreplaces =>
    obtain ⟨-, rfl⟩ := Prod.mk.inj hr
    have hrow : row.characterId = id := by
      have h := howner v
      rwa [hstow] at h
    obtain ⟨skills, hstored, -⟩ := (hreplaces hrow).2.holds.character
    refine ⟨v, ?_⟩
    rw [hstow]
    exact congrArg (Option.bind · CharacterRow.token) hstored
  | broken => cases hr
  | refused => cases hr

theorem Synced.ends (hc : c.database.Kept P) (h : y.Synced token id c c') :
    ∃ c₀ data, c₀.database = c.database ∧ y.Ends token id c₀ (.ok data, c') := by
  obtain ⟨data, h | ⟨c₀, hload, h⟩⟩ := h
  · exact ⟨c, data, rfl, h ▸ ends_limited hc rfl⟩
  · have hsame := y.database_loadToken id c
    rw [hload] at hsame
    exact ⟨c₀, data, hsame, h ▸ ends_limited (hsame ▸ hc) (bind_of_ok hload)⟩

theorem loadToken_of_ok (hc : c.database.Kept P) {row : TokenRow}
    (h : c.database.store.token? id = .ok (some row)) :
    (∃ token, (y.loadToken id c).1 = .ok token) ∨
      ∃ h : Halt AuthError, (y.loadToken id c).1 = .error (h.map .auth) := by
  rw [loadToken_eq hc, h]
  dsimp only
  split
  · split
    · exact .inl ⟨_, rfl⟩
    · exact .inr ⟨_, rfl⟩
  · exact .inl ⟨_, rfl⟩

theorem loadToken_of_error (hc : c.database.Kept P) {e : StoreError}
    (h : c.database.store.token? id = .error e) :
    y.loadToken id c = (.error (.failed (.store e)), c) := by
  rw [loadToken_eq hc, h]

end

/-- What is stored of a token that a character was synced with: all of it but the refresh token, which
may have been stowed away. -/
theorem Synced.stored {y : Syncer ω} {v : Vault σ} {token : Token} {id : Int}
    {c c' : Scene (ω × Keychain σ)} {P : Store → Prop} (hc : c.database.Kept P)
    (h : (y.withKeychain v).Synced token id c c') :
    ∃ secret, (c'.database.store.characters.get? id).bind (·.token) =
      some ⟨token.accessToken, secret, token.tokenType, token.expiration.secondsText⟩ := by
  obtain ⟨c₀, data, -, hends⟩ := h.ends hc
  obtain ⟨w, hstored⟩ := hends.stored_token (y.owner_withKeychain v _)
  obtain ⟨secret, hstow⟩ := Keychain.stow_secret v (token.forCharacter id) w.2
  refine ⟨secret, ?_⟩
  rw [hstored]
  change some (Store.stored (Keychain.stow v (token.forCharacter id) w.2).1) = _
  rw [hstow]
  rfl

/-- A token of whatever lifetime is made unless it would end in a year that no calendar reaches. Once a
character is synced with it, it is read back, to the second, if it ends in a year of four digits, and
later syncs load it unless it has to be renewed and is not. Else reading it fails, and no sync can load it
any more. -/
theorem token_is_read_back_within_four_digits (a : TokenAnswer) {now : Instant} (hnow : now.Clocked) :
    let e := now.addSeconds a.expiresIn
    (a.toToken now = if -262143 ≤ e.year ∧ e.year ≤ 262142 then
      .ok ⟨a.accessToken, a.refreshToken, a.tokenType, e⟩ else .error (.overflow a.expiresIn)) ∧
    ∀ t, a.toToken now = .ok t → ∀ (g : Grant) (y : Syncer ω) (v : Vault σ) (id : Int)
      (c c' : Scene (ω × Keychain σ)), c.database.Reachable →
      (y.withKeychain v).Synced (g.carry t) id c c' →
      if 0 ≤ e.year ∧ e.year ≤ 9999 then
        (∃ secret, c'.database.store.token? id =
          .ok (some ⟨⟨a.accessToken, secret, a.tokenType, e.truncate⟩, id⟩)) ∧
        ∀ later : Scene (ω × Keychain σ), later.database.Reachable →
          later.database.store.token? id = c'.database.store.token? id →
          (∃ token, ((y.withKeychain v).loadToken id later).1 = .ok token) ∨
          ∃ h : Halt AuthError, ((y.withKeychain v).loadToken id later).1 = .error (h.map .auth)
      else
        c'.database.store.token? id = .error Store.unreadableEnd ∧
        ∀ later : Scene (ω × Keychain σ), later.database.Reachable →
          later.database.store.token? id = c'.database.store.token? id →
          (y.withKeychain v).loadToken id later =
            (.error (.failed (.store Store.unreadableEnd)), later) := by
  intro e
  have hmade := a.toToken_eq hnow
  refine ⟨hmade, fun t ht g y v id c c' hc hsynced => ?_⟩
  obtain ⟨_, hcarry⟩ := g.carry_secret t
  obtain ⟨secret, hstored⟩ := hsynced.stored hc.sound
  rw [hcarry, TokenAnswer.toToken_eq_ok ht] at hstored
  split
  · have hread : c'.database.store.token? id =
        .ok (some ⟨⟨a.accessToken, secret, a.tokenType, e.truncate⟩, id⟩) :=
      Store.token?_of_stored hstored (Instant.read?_secondsText ‹_› hnow.leap_addSeconds)
    exact ⟨⟨secret, hread⟩, fun later hlater hsame => loadToken_of_ok hlater.sound (hsame.trans hread)⟩
  · have hread : c'.database.store.token? id = .error Store.unreadableEnd := by
      rw [Store.token?, hstored]
      dsimp only
      rw [Instant.read?_secondsText_of_sign ‹_›]
      rfl
    exact ⟨hread, fun later hlater hsame => loadToken_of_error hlater.sound (hsame.trans hread)⟩

def idleScene : Scene (Unit × Keychain (Table String String)) := ⟨((), ⟨true, .empty⟩), .fresh⟩

theorem clocked_start : (⟨1000, 0⟩ : Instant).Clocked where
  year := by decide +kernel
  nanos := by decide
  leap := nofun

def pilot : Snapshot :=
  ⟨⟨"Pilot", 500, none⟩, ⟨"", "", "", ""⟩, ⟨"Caldari Navy", "CN", some 0⟩, ⟨"", "", ""⟩, none,
    ⟨[⟨3300, 4, 4, 0⟩, ⟨3300, 5, 5, 0⟩], 0⟩⟩

theorem synced_idle (e : Instant) :
    let y := registry.withKeychain .memory
    let t : Token := ⟨"access", "refresh", "Bearer", e⟩
    y.Synced t 1 idleScene (y.refreshWith t 1 idleScene).2 := by
  intro y t
  have hfetch : Snapshot.fetch y.ask t.accessToken 1 idleScene.world = (.ok pilot, idleScene.world) := rfl
  have hfits : pilot.Fits 1 idleScene.database := by decide +kernel
  have hwork := y.fetchAndStore_eq t 1 idleScene
  rw [hfetch] at hwork
  have hdone := hwork.trans
    (y.keep_eq Database.Reachable.fresh.sound _ pilot (registry.owner_withKeychain .memory _ _) hfits)
  have hsync : y.refreshWith t 1 idleScene = _ := y.limited_of_ok 1 hdone
  exact ⟨pilot.data 1, .inl (by rw [hsync])⟩

theorem tokens_of_an_hour_and_of_ages :
    let y := registry.withKeychain .memory
    let now : Instant := ⟨1000, 0⟩
    let hour : Token := ⟨"access", "refresh", "Bearer", ⟨4600, 0⟩⟩
    let ages : Token := ⟨"access", "refresh", "Bearer", ⟨300000001000, 0⟩⟩
    let grant : Grant := .code "code" "verifier"
    now.Clocked ∧ idleScene.database.Reachable ∧
      (TokenAnswer.lasting 3600).toToken now = .ok hour ∧
      (TokenAnswer.lasting 300000000000).toToken now = .ok ages ∧
      y.Synced (grant.carry hour) 1 idleScene (y.refreshWith hour 1 idleScene).2 ∧
      y.Synced (grant.carry ages) 1 idleScene (y.refreshWith ages 1 idleScene).2 ∧
      (∃ secret, (y.refreshWith hour 1 idleScene).2.database.store.token? 1 =
        .ok (some ⟨⟨"access", secret, "Bearer", ⟨4600, 0⟩⟩, 1⟩)) ∧
      (y.refreshWith ages 1 idleScene).2.database.store.token? 1 = .error Store.unreadableEnd := by
  intro y now hour ages grant
  have hhour := token_is_read_back_within_four_digits (ω := Unit) (σ := Table String String)
    (TokenAnswer.lasting 3600) clocked_start
  have hages := token_is_read_back_within_four_digits (ω := Unit) (σ := Table String String)
    (TokenAnswer.lasting 300000000000) clocked_start
  have hone : (TokenAnswer.lasting 3600).toToken now = .ok hour := by
    refine hhour.1.trans ?_
    exact if_pos (by decide +kernel)
  have htwo : (TokenAnswer.lasting 300000000000).toToken now = .ok ages := by
    refine hages.1.trans ?_
    exact if_pos (by decide +kernel)
  have hearly : y.Synced (grant.carry hour) 1 idleScene (y.refreshWith hour 1 idleScene).2 :=
    synced_idle _
  have hlate : y.Synced (grant.carry ages) 1 idleScene (y.refreshWith ages 1 idleScene).2 := synced_idle _
  generalize (y.refreshWith hour 1 idleScene).2 = c₁ at hearly ⊢
  generalize (y.refreshWith ages 1 idleScene).2 = c₂ at hlate ⊢
  have hread := hhour.2 hour hone grant registry .memory 1 idleScene c₁ .fresh hearly
  have hlost := hages.2 ages htwo grant registry .memory 1 idleScene c₂ .fresh hlate
  rw [if_pos (by decide +kernel)] at hread
  rw [if_neg (by decide +kernel)] at hlost
  exact ⟨clocked_start, .fresh, hone, htwo, hearly, hlate, hread.1, hlost.1⟩

/-- A lifetime may be too long for a token to be made of it, or for the token to be read back once it was
synced. -/
theorem long_lifetime_is_refused_or_unreadable :
    let y := registry.withKeychain .memory
    let now : Instant := ⟨1000, 0⟩
    (TokenAnswer.lasting 0x7FFFFFFFFFFFFFFF).toToken now = .error (.overflow 0x7FFFFFFFFFFFFFFF) ∧
    ∃ t c', (TokenAnswer.lasting 300000000000).toToken now = .ok t ∧ y.Synced t 1 idleScene c' ∧
      ∀ row, c'.database.store.token? 1 ≠ .ok row := by
  intro y now
  have hmade : (TokenAnswer.lasting 300000000000).toToken now =
      .ok ⟨"access", "refresh", "Bearer", ⟨300000001000, 0⟩⟩ := by
    rw [TokenAnswer.toToken, TokenAnswer.expiration, if_pos (by decide +kernel)]
    rfl
  refine ⟨?_, _, _, hmade, synced_idle _, fun row hrow => ?_⟩
  · rw [TokenAnswer.toToken, TokenAnswer.expiration, if_neg (by decide +kernel)]
    rfl
  · obtain ⟨secret, hstored⟩ :=
      Synced.stored Database.Reachable.fresh.sound (synced_idle ⟨300000001000, 0⟩)
    have hread : Instant.read? (⟨300000001000, 0⟩ : Instant).secondsText = none := by decide +kernel
    rw [Store.token?, hstored] at hrow
    dsimp only at hrow
    rw [hread] at hrow
    cases hrow

end Syncer

end Muster
