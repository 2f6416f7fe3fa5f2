import Muster.Store
import Muster.Store.Roles
import Muster.Store.Tags

/-! Transactions over the store: what happens between their begin and their commit is kept as a whole
or not at all. -/

namespace Muster

/-- A store in use. While a transaction is open, `undo` is the store it began with, and `broken` tells
whether it has done what no commit accepts. A poisoned database can no longer be locked. -/
structure Database where
  store : Store
  undo : Option Store
  broken : Bool
  poisoned : Bool
deriving DecidableEq

namespace Database

def fresh : Database := ⟨.empty, none, false, false⟩

def begin (d : Database) : Except EngineError Database :=
  if d.undo.isSome then .error .nestedTransaction else .ok { d with undo := some d.store }

def commit (d : Database) : Except EngineError Database :=
  if d.undo.isNone then .error .nothingToCommit
  else if d.broken then .error .foreignKey
  else .ok { d with undo := none }

def rollback (d : Database) : Except EngineError Database :=
  match d.undo with
  | none => .error .nothingToRollBack
  | some s => .ok { d with store := s, undo := none, broken := false }

def abandon (d : Database) : Database := d.rollback.toOption.getD d

/-- What a transaction does: it has a state of its own, kept from one attempt to the next, and the
database. -/
abbrev Body (σ α : Type) := σ → Database → Except StoreError α × σ × Database

/-- Attempts a body, and if it fails up to `more` times again. A begin or a commit that is refused ends
it at once. -/
def attempt (body : Body σ α) : Nat → List StoreError → Body σ α
  | more, errors, s, d =>
    match d.begin with
    | .error e => (.error (.engine e), s, d)
    | .ok d =>
      match body s d with
      | (.ok a, s, d) =>
        match d.commit with
        | .ok d => (.ok a, s, d)
        | .error e => (.error (.engine e), s, d.abandon)
      | (.error e, s, d) =>
        match more, e.isRetryable with
        | more + 1, true => attempt body more (errors ++ [e]) s d.abandon
        | _, _ => (.error (.exhausted (errors ++ [e])), s, d.abandon)

/-- Runs a body as a transaction with a number of attempts, of which there is always one. -/
def transact (attempts : Nat) (body : Body σ α) : Body σ α := attempt body (attempts - 1) []

abbrev Action := ExceptT StoreError (StateM Database)

def usualAttempts : Nat := 3

def run (a : Store.Action α) : Action α := fun d =>
  let (r, s) := a d.store
  (r, { d with store := s })

def atomically (a : Store.Action α) : Action α := fun d =>
  let (r, _, d) := transact usualAttempts (fun _ d => let (r, d) := run a d; (r, (), d)) () d
  (r, d)

def lock : Action Unit := do
  if (← get).poisoned then throw .poisoned

def locked (a : Action α) : Action α := do
  lock
  a

end Database

end Muster
