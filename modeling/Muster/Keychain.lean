import Muster.Table
import Muster.Token

/-! Refresh tokens in the keychain of the operating system, which may fail or lose what it is given. -/

namespace Muster

inductive VaultError where
  | platformFailure (cause : String)
  | noStorageAccess (cause : String)
  | noEntry
  | badEncoding
  | tooLong (field : String) (limit : Nat)
  | invalid (field reason : String)
deriving Repr, DecidableEq

namespace VaultError

def message : VaultError → String
  | platformFailure cause => s!"Platform secure storage failure: {cause}"
  | noStorageAccess cause => s!"Couldn't access platform secure storage: {cause}"
  | noEntry => "No matching entry found in secure storage"
  | badEncoding => "Data is not UTF-8 encoded"
  | tooLong field limit => s!"Attribute '{field}' is longer than platform limit of {limit} chars"
  | invalid field reason => s!"Attribute {field} is invalid: {reason}"

def isPlatform : VaultError → Bool
  | platformFailure _ => true
  | noStorageAccess _ => true
  | _ => false

end VaultError

/-- A store of secrets with a state of its own. A handle is opened before each operation. -/
structure Vault (σ : Type) where
  openEntry : String → σ → Except VaultError Unit × σ
  write : String → String → σ → Except VaultError Unit × σ
  read : String → σ → Except VaultError String × σ
  remove : String → σ → Except VaultError Unit × σ

structure Keychain (σ : Type) where
  unavailable : Bool
  vault : σ
deriving Repr, DecidableEq

namespace Keychain

variable {σ α : Type}

def fresh (s : σ) : Keychain σ := ⟨false, s⟩

/-- Opens an entry and runs an operation on it. A platform error of the operation gives the answer
for a keychain that is not there, and no operation touches the vault from then on. -/
def attempt (v : Vault σ) (key doing : String) (absent : α) (op : σ → Except VaultError α × σ)
    (k : Keychain σ) : Except String α × Keychain σ :=
  if k.unavailable then (.ok absent, k)
  else
    match v.openEntry key k.vault with
    | (.error e, s) => (.error s!"Failed to create keychain entry for {key}: {e.message}", ⟨e.isPlatform, s⟩)
    | (.ok (), s) =>
      match op s with
      | (.ok a, s) => (.ok a, ⟨false, s⟩)
      | (.error e, s) =>
        if e.isPlatform then (.ok absent, ⟨true, s⟩)
        else (.error s!"Failed to {doing} secret {key}: {e.message}", ⟨false, s⟩)

def orMissing (missing : α) : Except VaultError α × σ → Except VaultError α × σ
  | (.error .noEntry, s) => (.ok missing, s)
  | r => r

def store (v : Vault σ) (key value : String) : Keychain σ → Except String Bool × Keychain σ :=
  attempt v key "store" false fun s =>
    let (r, s) := v.write key value s
    (r.map fun _ => true, s)

def get (v : Vault σ) (key : String) : Keychain σ → Except String (Option String) × Keychain σ :=
  attempt v key "get" none fun s =>
    let (r, s) := v.read key s
    orMissing none (r.map some, s)

def delete (v : Vault σ) (key : String) : Keychain σ → Except String Bool × Keychain σ :=
  attempt v key "delete" false fun s =>
    let (r, s) := v.remove key s
    orMissing false (r.map fun _ => true, s)

def entryName (characterId : Int) : String := s!"refresh_token:{characterId}"

/-- Moves the refresh token into the keychain; it counts only when it reads back. -/
def stow (v : Vault σ) (row : TokenRow) (k : Keychain σ) : TokenRow × Keychain σ :=
  if row.refreshToken.isEmpty then (row, k)
  else
    let key := entryName row.characterId
    match store v key row.refreshToken k with
    | (.ok true, k) =>
      match get v key k with
      | (.ok (some found), k) =>
        (if found = row.refreshToken then { row with refreshToken := "" } else row, k)
      | (_, k) => (row, k)
    | (_, k) => (row, k)

def restore (v : Vault σ) (row : TokenRow) (k : Keychain σ) : TokenRow × Keychain σ :=
  if row.refreshToken.isEmpty then
    match get v (entryName row.characterId) k with
    | (.ok (some found), k) => ({ row with refreshToken := found }, k)
    | (_, k) => (row, k)
  else (row, k)

def forget (v : Vault σ) (characterId : Int) (k : Keychain σ) : Keychain σ :=
  (delete v (entryName characterId) k).2

end Keychain

/-! A vault in memory that can be told to lose what is written or to fail. -/

inductive VaultFault where
  | fails (error : VaultError)
  | alters
deriving Repr, DecidableEq

/-- Entries, and faults by operation or by operation and entry. -/
structure ScriptedVault where
  entries : Table String String
  faults : List (String × VaultFault)
  forgetful : Bool

namespace ScriptedVault

/-- The fault for an operation on an entry; one that names the entry goes first. -/
def faultFor (s : ScriptedVault) (action key : String) : Option VaultFault :=
  (s.faults.lookup s!"{action} {key}").or (s.faults.lookup action)

def guarded (s : ScriptedVault) (action key : String) (run : Except VaultError α × ScriptedVault) :
    Except VaultError α × ScriptedVault :=
  match s.faultFor action key with
  | some (.fails e) => (.error e, s)
  | _ => run

def write (key value : String) (s : ScriptedVault) : Except VaultError Unit × ScriptedVault :=
  let kept := if s.faultFor "set" key = some .alters then value ++ "!" else value
  s.guarded "set" key
    (.ok (), if s.forgetful then s else { s with entries := s.entries.insert key kept })

def read (key : String) (s : ScriptedVault) : Except VaultError String × ScriptedVault :=
  s.guarded "get" key ((s.entries.get? key).elim (.error .noEntry) .ok, s)

def remove (key : String) (s : ScriptedVault) : Except VaultError Unit × ScriptedVault :=
  s.guarded "delete" key
    (if s.entries.contains key then (.ok (), { s with entries := s.entries.erase key })
    else (.error .noEntry, s))

def vault : Vault ScriptedVault where
  openEntry key s := s.guarded "new" key (.ok (), s)
  write := write
  read := read
  remove := remove

end ScriptedVault

end Muster
