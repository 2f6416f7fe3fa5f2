/-! What can go wrong in the store. -/

namespace Muster

inductive EngineError where
  | foreignKey
  | duplicateSetting
  | unknownOperator
  | tooManyVariables (statement : String) (offset : Nat)
  | nestedTransaction
  | nothingToCommit
  | nothingToRollBack
  | noRows
  | cannotOpen
deriving Repr, DecidableEq

def EngineError.message : EngineError → String
  | foreignKey => "FOREIGN KEY constraint failed"
  | duplicateSetting => "UNIQUE constraint failed: settings.key"
  | unknownOperator => "CHECK constraint failed: operator IN ('all', 'any', 'none')"
  | tooManyVariables statement offset =>
    s!"variable number must be between ?1 and ?32766 in {statement} at offset {offset}"
  | nestedTransaction => "cannot start a transaction within a transaction"
  | nothingToCommit => "cannot commit - no transaction is active"
  | nothingToRollBack => "cannot rollback - no transaction is active"
  | noRows => "Query returned no rows"
  | cannotOpen => "unable to open database file"

inductive StoreError where
  | engine (cause : EngineError)
  | encoding (detail : String)
  | invalidValue (field reason : String)
  | nonRetryable (inner : StoreError)
  | exhausted (errors : List StoreError)
  | poisoned
  | io (detail : String)
deriving Inhabited

namespace StoreError

def joinTexts (texts : List String) : String := String.intercalate "; " texts

mutual

def message : StoreError → String
  | engine cause => s!"database error: {cause.message}"
  | encoding detail => s!"could not encode value: {detail}"
  | invalidValue field reason => s!"invalid {field} in database: {reason}"
  | nonRetryable inner => message inner
  | exhausted errors =>
    s!"transaction failed after {errors.length} attempt(s): {joinTexts (messages errors)}"
  | poisoned => "database lock poisoned"
  | io detail => s!"could not open database: {detail}"

def messages : List StoreError → List String
  | [] => []
  | e :: es => message e :: messages es

end

def chain : StoreError → List String
  | engine cause => [message (engine cause), cause.message]
  | encoding detail => [message (encoding detail), detail]
  | io detail => [message (io detail), detail]
  | e => [message e]

/-- Only an error marked so ends the attempts at once. -/
def isRetryable : StoreError → Bool
  | nonRetryable _ => false
  | _ => true

end StoreError

end Muster
