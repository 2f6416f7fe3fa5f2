import Muster.Login.Error
import Muster.Table
import Muster.Text
import Muster.Text.Form

/-! The callback server: where it listens, the logins that wait for it, and what it answers. -/

namespace Muster

/-! Addresses of this machine at which a server can listen. -/

structure Address where
  ip : List Nat
  port : Nat
deriving Repr, DecidableEq

namespace Address

def readByte (cs : List Char) : Option Nat :=
  if cs.length = 1 ∨ cs.head? ≠ some '0' then (Text.readNat 10 cs).filter (· < 256) else none

/-- Four bytes, or the name of this machine for itself. -/
def readIp (cs : List Char) : Option (List Nat) :=
  if cs = "localhost".toList then some [127, 0, 0, 1]
  else if (Text.pieces '.' cs).length = 4 then (Text.pieces '.' cs).mapM readByte
  else none

def read? (s : String) : Option Address := do
  let (port, host) ← Text.cut? (· = ':') s.toList.reverse
  return ⟨← readIp host.reverse, ← (Text.readNat 10 port.reverse).filter (· < 65536)⟩

def isOwn (a : Address) : Bool := a.ip.head? == some 127 || a.ip == [0, 0, 0, 0]

/-- The address at which a server listens for a host and a port. Port zero stands for any free one. -/
def listen (s : String) : Except String Address :=
  match (read? s).filter isOwn with
  | some a => .ok (if a.port = 0 then { a with port := 49152 } else a)
  | none => .error "cannot listen there"

def ipText (a : Address) : String := String.intercalate "." (a.ip.map toString)

end Address

/-! Logins that wait for their callback. A state leads to one login at a time; the login that gets a
code is no longer registered, and ending a login takes the registration of its state away. -/

structure PendingLogin where
  state : String
  code : Option String
deriving Repr, DecidableEq

/-- Logins are numbered in the order in which they begin. -/
structure Callbacks where
  pending : Table String Nat
  logins : Table Nat PendingLogin
  count : Nat
deriving DecidableEq

namespace Callbacks

def empty : Callbacks := ⟨.empty, .empty, 0⟩

def expect (state : String) (c : Callbacks) : Nat × Callbacks :=
  (c.count, ⟨c.pending.insert state c.count, c.logins.insert c.count ⟨state, none⟩, c.count + 1⟩)

def remove (state : String) (c : Callbacks) : Callbacks :=
  { c with pending := c.pending.erase state }

def isPending (state : String) (c : Callbacks) : Bool := c.pending.contains state

def deliver (state code : String) (c : Callbacks) : Bool × Callbacks :=
  match c.pending.get? state with
  | none => (false, c)
  | some n => (true, { c.remove state with
      logins := c.logins.adjust n fun l => { l with code := some code } })

def drop (n : Nat) (c : Callbacks) : Callbacks :=
  match c.logins.get? n with
  | none => c
  | some l => { c.remove l.state with logins := c.logins.erase n }

def verdict (n : Nat) (limit : Duration) (c : Callbacks) : Except AuthError String :=
  match c.logins.get? n with
  | none => .error .cancelled
  | some l =>
    match l.code with
    | some code => .ok code
    | none => if c.pending.get? l.state = some n then .error (.timeout limit) else .error .cancelled

def wait (n : Nat) (limit : Duration) (c : Callbacks) : Except AuthError String × Callbacks :=
  (c.verdict n limit, c.drop n)

end Callbacks

/-! What the callback server answers to a request. -/

structure CallbackQuery where
  code : Option String
  state : Option String
deriving Repr, DecidableEq

namespace CallbackQuery

/-- Reads the pairs of a query; the name of a field that comes twice is an error. -/
def read : List (String × String) → CallbackQuery → Except String CallbackQuery
  | [], q => .ok q
  | ("code", v) :: ps, q =>
    if q.code.isSome then .error "code" else read ps { q with code := some v }
  | ("state", v) :: ps, q =>
    if q.state.isSome then .error "state" else read ps { q with state := some v }
  | _ :: ps, q => read ps q

end CallbackQuery

structure Reply where
  status : Http.Status
  body : String
deriving Repr, DecidableEq

namespace Callbacks

/-- A code that is not empty goes to the login of its state. -/
def receive (pairs : List (String × String)) (c : Callbacks) : Reply × Callbacks :=
  match CallbackQuery.read pairs ⟨none, none⟩ with
  | .error field => (⟨⟨400⟩, s!"Failed to deserialize query string: duplicate field `{field}`"⟩, c)
  | .ok q =>
    let code := q.code.getD ""
    if code.isEmpty then (⟨⟨400⟩, "error"⟩, c)
    else
      match c.deliver (q.state.getD "") code with
      | (true, c) => (⟨⟨200⟩, "ok"⟩, c)
      | (false, c) => (⟨⟨400⟩, "error"⟩, c)

def withoutHost (cs : List Char) : List Char :=
  match Text.cut? (· = ':') cs with
  | some (scheme, '/' :: '/' :: rest) =>
    if scheme.contains '/' || scheme.contains '?' then cs
    else
      let rest := rest.dropWhile fun c => c != '/' && c != '?'
      if rest.head? = some '/' then rest else '/' :: rest
  | _ => cs

/-- Requests go to one path, compared as written, and read it. A request for the head alone is answered
without the text. -/
def route (path method uri : String) (c : Callbacks) : Reply × Callbacks :=
  let whole := uri.toList.takeWhile (· != '#')
  let whole := withoutHost whole
  let (target, query) := (Text.cut? (· = '?') whole).getD (whole, [])
  if String.ofList target ≠ path then (⟨⟨404⟩, ""⟩, c)
  else if method = "GET" then c.receive (Text.Form.decode query)
  else if method = "HEAD" then
    let (r, c) := c.receive (Text.Form.decode query)
    (⟨r.status, ""⟩, c)
  else (⟨⟨405⟩, ""⟩, c)

end Callbacks

end Muster
