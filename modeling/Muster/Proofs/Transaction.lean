import Mathlib.Data.Nat.Find
import Mathlib.Order.Bounds.Basic
import Muster.Database

/-! Transactions with attempts keep all of one attempt or nothing of any. -/

namespace Muster.Database

variable {σ α : Type}

/-- Only while a transaction is open can something wait that no commit accepts. -/
def Valid (d : Database) : Prop := d.undo = none → d.broken = false

def opened (d : Database) : Database := { d with undo := some d.store }

/-- The body begins, commits and rolls back nothing itself, and the lock is not its business. -/
def Confined (body : Body σ α) : Prop :=
  ∀ s d, (body s d).2.2.undo = d.undo ∧ (body s d).2.2.poisoned = d.poisoned

section

variable (body : Body σ α) (s : σ) (d : Database)

/-- The state of the body after some attempts, each of them on the database as it was at first. -/
def stateAfter : Nat → σ
  | 0 => s
  | i + 1 => (body (stateAfter i) d.opened).2.1

def outcome (i : Nat) : Except StoreError α := (body (stateAfter body s d i) d.opened).1

def result (i : Nat) : Database := (body (stateAfter body s d i) d.opened).2.2

def FirstSuccess (i : Nat) (a : α) : Prop :=
  outcome body s d i = .ok a ∧ ∀ j < i, ∃ e, outcome body s d j = .error e ∧ e.isRetryable = true

/-- The number of an attempt after which there is none: the last one allowed, or one that failed in a
way that ends them all. -/
def Final (attempts n : Nat) : Prop :=
  n = max 1 attempts ∨ ∃ i e, n = i + 1 ∧ outcome body s d i = .error e ∧ e.isRetryable = false

end

def logged (body : Body σ α) : Body (σ × List Database) α := fun (s, log) d =>
  let (r, s, d') := body s d
  (r, (s, log ++ [d]), d')

variable {body : Body σ α} {s : σ} {d : Database}

theorem transact_of_open (attempts : Nat) (body : Body σ α) (s : σ) (h : d.undo ≠ none) :
    transact attempts body s d = (.error (.engine .nestedTransaction), s, d) := by
  have hs : d.undo.isSome = true := Option.isSome_iff_ne_none.2 h
  rw [transact, attempt, begin, if_pos hs]

theorem begin_eq_opened (h : d.undo = none) : d.begin = .ok d.opened := by
  simp [begin, opened, h]

theorem abandon_eq (hb : Confined body) (hd : d.Valid) (ho : d.undo = none) (s : σ) :
    (body s d.opened).2.2.abandon = d := by
  obtain ⟨hu, hp⟩ := hb s d.opened
  have hk := hd ho
  rw [abandon, rollback, hu]
  cases d
  simp_all [opened, Except.toOption]

theorem failures_of_no_success {attempts n : Nat} (hn : IsLeast {n | Final body s d attempts n} n)
    (h : ¬∃ i a, i < max 1 attempts ∧ FirstSuccess body s d i a) :
    ∀ j < n, ∃ e, outcome body s d j = .error e := by
  have hmax : n ≤ max 1 attempts := hn.2 (.inl rfl)
  intro j
  induction j using Nat.strong_induction_on with
  | _ j ih =>
    intro hj
    cases hj' : outcome body s d j with
    | error e => exact ⟨e, rfl⟩
    | ok a =>
      refine absurd ⟨j, a, by omega, hj', fun k hk => ?_⟩ h
      obtain ⟨e, he⟩ := ih k hk (by omega)
      refine ⟨e, he, ?_⟩
      cases hr : e.isRetryable with
      | true => rfl
      | false =>
        have hle : n ≤ k + 1 := hn.2 (.inr ⟨k, e, rfl, he, hr⟩)
        omega

section

variable (hb : Confined body) (hd : d.Valid) (ho : d.undo = none)
include hb hd ho

/-- The commit after a success may still be refused. -/
theorem attempt_of_ok {a : α} (h : (body s d.opened).1 = .ok a) (more : Nat)
    (errors : List StoreError) :
    attempt body more errors s d =
      if (body s d.opened).2.2.broken then
        (.error (.engine .foreignKey), (body s d.opened).2.1, d)
      else (.ok a, (body s d.opened).2.1, { (body s d.opened).2.2 with undo := none }) := by
  have hu : (body s d.opened).2.2.undo = some d.store := (hb s d.opened).1
  have ha := abandon_eq hb hd ho s
  rw [attempt, begin_eq_opened ho]
  rcases hr : body s d.opened with ⟨r, s', d'⟩
  rw [hr] at h hu ha
  cases h
  by_cases hk : d'.broken <;> simp_all [commit]

theorem attempt_of_error {e : StoreError} (h : (body s d.opened).1 = .error e)
    (he : e.isRetryable = true) (more : Nat) (errors : List StoreError) :
    attempt body (more + 1) errors s d =
      attempt body more (errors ++ [e]) (body s d.opened).2.1 d := by
  have ha := abandon_eq hb hd ho s
  rw [attempt, begin_eq_opened ho]
  rcases hr : body s d.opened with ⟨r, s', d'⟩
  rw [hr] at h ha
  cases h
  simp only [he, hr, ha]

theorem attempt_of_last_error {e : StoreError} (h : (body s d.opened).1 = .error e) (more : Nat)
    (hl : more = 0 ∨ e.isRetryable = false) (errors : List StoreError) :
    attempt body more errors s d =
      (.error (.exhausted (errors ++ [e])), (body s d.opened).2.1, d) := by
  have ha := abandon_eq hb hd ho s
  rw [attempt, begin_eq_opened ho]
  rcases hr : body s d.opened with ⟨r, s', d'⟩
  rw [hr] at h ha
  cases h
  obtain rfl | he := hl
  · simp only [hr, ha]
  · cases more <;> simp only [he, hr, ha]

/-- Attempts that all fail in a way that allows another one leave their errors and the state of the
body, and nothing in the database. -/
theorem attempt_after_failures (n more : Nat) (hn : n ≤ more)
    (hf : ∀ i < n, ∃ e, outcome body s d i = .error e ∧ e.isRetryable = true) :
    ∃ errors : List StoreError,
      errors.map .error = (List.range n).map (outcome body s d) ∧
      attempt body more [] s d = attempt body (more - n) errors (stateAfter body s d n) d := by
  induction n with
  | zero => exact ⟨[], rfl, rfl⟩
  | succ n ih =>
    obtain ⟨errors, hm, hrun⟩ := ih (by omega) fun i hi => hf i (by omega)
    obtain ⟨e, he, hr⟩ := hf n (by omega)
    have hmore : more - n = more - (n + 1) + 1 := by omega
    refine ⟨errors ++ [e], ?_, ?_⟩
    · rw [List.map_append, hm, List.range_succ, List.map_append, List.map_singleton,
        List.map_singleton, he]
    · rw [hrun, hmore, attempt_of_error hb hd ho he hr, stateAfter]

theorem transact_of_firstSuccess {attempts i : Nat} {a : α} (hi : i < max 1 attempts)
    (h : FirstSuccess body s d i a) :
    transact attempts body s d =
      if (result body s d i).broken then
        (.error (.engine .foreignKey), stateAfter body s d (i + 1), d)
      else (.ok a, stateAfter body s d (i + 1), { result body s d i with undo := none }) := by
  obtain ⟨errors, -, hrun⟩ := attempt_after_failures hb hd ho i (attempts - 1) (by omega) h.2
  rw [transact, hrun, attempt_of_ok hb hd ho h.1]
  rfl

theorem transact_of_no_success {attempts : Nat}
    (h : ¬∃ i a, i < max 1 attempts ∧ FirstSuccess body s d i a) :
    ∃ errors : List StoreError,
      IsLeast {n | Final body s d attempts n} errors.length ∧
      errors.map .error = (List.range errors.length).map (outcome body s d) ∧
      transact attempts body s d =
        (.error (.exhausted errors), stateAfter body s d errors.length, d) := by
  classical
  have hex : ∃ n, Final body s d attempts n := ⟨max 1 attempts, .inl rfl⟩
  have hleast : IsLeast {n | Final body s d attempts n} (Nat.find hex) :=
    ⟨Nat.find_spec hex, fun n hn => Nat.find_min' hex hn⟩
  generalize Nat.find hex = n at hleast
  have hfail := failures_of_no_success hleast h
  have hmax : n ≤ max 1 attempts := hleast.2 (.inl rfl)
  obtain ⟨k, rfl⟩ : ∃ k, n = k + 1 := by
    obtain hn | ⟨k, -, hn, -⟩ := hleast.1
    · exact ⟨n - 1, by omega⟩
    · exact ⟨k, hn⟩
  -- No attempt before the final one ends them all, so each of them allows another one.
  have hretry : ∀ j < k, ∃ e, outcome body s d j = .error e ∧ e.isRetryable = true := by
    intro j hj
    obtain ⟨e, he⟩ := hfail j (by omega)
    refine ⟨e, he, ?_⟩
    cases hr : e.isRetryable with
    | true => rfl
    | false =>
      have hle : k + 1 ≤ j + 1 := hleast.2 (.inr ⟨j, e, rfl, he, hr⟩)
      omega
  obtain ⟨errors, hm, hrun⟩ := attempt_after_failures hb hd ho k (attempts - 1) (by omega) hretry
  obtain ⟨e, he⟩ := hfail k (by omega)
  have hlen : errors.length = k := by simpa using congrArg List.length hm
  have hlast : attempts - 1 - k = 0 ∨ e.isRetryable = false := by
    obtain hn | ⟨j, e', hj, he', hr⟩ := hleast.1
    · left
      omega
    · right
      cases Nat.succ.inj hj
      rw [he] at he'
      cases he'
      exact hr
  have hlen' : (errors ++ [e]).length = k + 1 := by simp [hlen]
  refine ⟨errors ++ [e], hlen' ▸ hleast, ?_, ?_⟩
  · rw [hlen', List.map_append, hm, List.range_succ, List.map_append, List.map_singleton,
      List.map_singleton, he]
  · rw [transact, hrun, attempt_of_last_error hb hd ho he _ hlast, hlen', stateAfter]

end

/-! The list that a logged body keeps shows what each attempt was given. -/

theorem confined_logged (hb : Confined body) : Confined (logged body) :=
  fun s d => hb s.1 d

theorem stateAfter_logged (log : List Database) (i : Nat) :
    stateAfter (logged body) (s, log) d i =
      (stateAfter body s d i, log ++ List.replicate i d.opened) := by
  induction i with
  | zero => simp [stateAfter]
  | succ i ih => rw [stateAfter, ih, stateAfter, List.replicate_succ']; simp [logged]

theorem outcome_logged (log : List Database) :
    outcome (logged body) (s, log) d = outcome body s d := by
  funext i
  rw [outcome, stateAfter_logged]
  rfl

theorem result_logged (log : List Database) (i : Nat) :
    result (logged body) (s, log) d i = result body s d i := by
  rw [result, stateAfter_logged]
  rfl

theorem attempt_logged (more : Nat) (errors : List StoreError) (s : σ) (log : List Database)
    (d : Database) :
    (fun run : _ × (σ × List Database) × _ => (run.1, run.2.1.1, run.2.2))
        (attempt (logged body) more errors (s, log) d) =
      attempt body more errors s d := by
  induction more generalizing errors s log d with
  | zero =>
    rw [attempt, attempt]
    cases d.begin with
    | error e => rfl
    | ok d =>
      rcases hr : body s d with ⟨_ | a, s', d'⟩
      · simp [logged, hr]
      · cases hc : d'.commit <;> simp [logged, hr, hc]
  | succ more ih =>
    rw [attempt, attempt]
    cases d.begin with
    | error e => rfl
    | ok d =>
      rcases hr : body s d with ⟨e | a, s', d'⟩
      · cases he : e.isRetryable with
        | true => simpa [logged, hr, he] using ih _ _ _ _
        | false => simp [logged, hr, he]
      · cases hc : d'.commit <;> simp [logged, hr, hc]

/-- Every attempt begins from the database as it was. The first success within the allowed attempts is
kept alone, unless its commit is refused; without one, the errors of all attempts up to the final one
are told. But for a kept success the database is unchanged, and an open transaction prevents any
attempt. -/
theorem transact_keeps_one_attempt_or_nothing (attempts : Nat) (body : Body σ α)
    (hb : Confined body) (s : σ) (d : Database) (hd : d.Valid) :
    let run := transact attempts (logged body) (s, []) d
    transact attempts body s d = (run.1, run.2.1.1, run.2.2) ∧
    (d.undo ≠ none → run = (.error (.engine .nestedTransaction), (s, []), d)) ∧
    (d.undo = none →
      (∀ i a, i < max 1 attempts → FirstSuccess body s d i a →
        run.2.1 = (stateAfter body s d (i + 1), List.replicate (i + 1) d.opened) ∧
        (run.1, run.2.2) =
          if (result body s d i).broken then (.error (.engine .foreignKey), d)
          else (.ok a, { result body s d i with undo := none })) ∧
      ((¬∃ i a, i < max 1 attempts ∧ FirstSuccess body s d i a) →
        ∃ errors : List StoreError,
          IsLeast {n | Final body s d attempts n} errors.length ∧
          errors.map .error = (List.range errors.length).map (outcome body s d) ∧
          run = (.error (.exhausted errors),
            (stateAfter body s d errors.length, List.replicate errors.length d.opened), d))) := by
  intro run
  have hl := confined_logged hb
  refine ⟨(attempt_logged (attempts - 1) [] s [] d).symm, transact_of_open attempts _ _,
    fun ho => ⟨fun i a hi h => ?_, fun h => ?_⟩⟩
  · have h' : FirstSuccess (logged body) (s, []) d i a := by
      rwa [FirstSuccess, outcome_logged]
    have hrun : run = _ := transact_of_firstSuccess hl hd ho hi h'
    rw [result_logged, stateAfter_logged, List.nil_append] at hrun
    rw [hrun]
    split <;> exact ⟨rfl, rfl⟩
  · have h' : ¬∃ i a, i < max 1 attempts ∧ FirstSuccess (logged body) (s, []) d i a := by
      simpa only [FirstSuccess, outcome_logged] using h
    obtain ⟨errors, hleast, hm, hrun⟩ := transact_of_no_success hl hd ho h'
    simp only [Final, outcome_logged] at hleast hm
    rw [stateAfter_logged, List.nil_append] at hrun
    exact ⟨errors, hleast, hm, hrun⟩

def hesitant : Body Nat Int := fun tries d =>
  match run (Store.putSettingText "a" "1") d with
  | (.error e, d) => (.error e, tries + 1, d)
  | (.ok (), d) => (if tries = 0 then .error .poisoned else .ok 7, tries + 1, d)

theorem hesitant_is_kept_once :
    Confined hesitant ∧ fresh.Valid ∧ fresh.undo = none ∧ FirstSuccess hesitant 0 fresh 1 7 ∧
    transact 3 (logged hesitant) (0, []) fresh =
      (.ok 7, (2, [fresh.opened, fresh.opened]),
        { fresh with store := { Store.empty with settings := Table.empty.insert "a" "1" } }) := by
  have hb : Confined hesitant := fun _ _ => ⟨rfl, rfl⟩
  have hd : fresh.Valid := fun _ => rfl
  have hs : FirstSuccess hesitant 0 fresh 1 7 := by
    refine ⟨rfl, fun j hj => ?_⟩
    obtain rfl : j = 0 := by omega
    exact ⟨.poisoned, rfl, rfl⟩
  have h := transact_keeps_one_attempt_or_nothing 3 hesitant hb 0 fresh hd
  obtain ⟨hstate, hkept⟩ := (h.2.2 rfl).1 1 7 (by decide) hs
  have hk : (result hesitant 0 fresh 1).broken = false := rfl
  rw [hk] at hkept
  obtain ⟨hvalue, hdatabase⟩ := Prod.mk.inj hkept
  exact ⟨hb, hd, rfl, hs, Prod.ext hvalue (Prod.ext hstate hdatabase)⟩

def unacceptable : Body Unit Int := fun _ d =>
  match run (Store.putSettingText "a" "1") d with
  | (.error e, d) => (.error e, (), d)
  | (.ok (), d) => (.ok 7, (), { d with broken := true })

/-- A first success is not always kept: its commit may be refused. -/
theorem refused_commit_drops_first_success :
    Confined unacceptable ∧ fresh.Valid ∧ fresh.undo = none ∧
    FirstSuccess unacceptable () fresh 0 7 ∧
    transact 3 unacceptable () fresh = (.error (.engine .foreignKey), (), fresh) := by
  refine ⟨fun _ _ => ⟨rfl, rfl⟩, fun _ => rfl, rfl, ⟨rfl, fun j hj => ?_⟩, rfl⟩
  exact absurd hj (Nat.not_lt_zero j)

end Muster.Database
