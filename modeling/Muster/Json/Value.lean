import Muster.Text

/-! JSON values, the fields of records, and what of a value can be held in memory. -/

namespace Muster

/-! JSON values, with members in the order of the text and repeats kept. -/

/-- A number is an integer of 64 bits, signed or unsigned, or a decimal `digits * 10 ^ exponent`.
The literal `-0` and larger integers are decimals. -/
inductive Json.Number where
  | int (value : Int)
  | decimal (negative : Bool) (digits : Nat) (exponent : Int)
deriving Repr, DecidableEq

/-- A string literal, or `none` when its escapes name half a surrogate pair: such a literal can be
skipped but not read. -/
abbrev Json.Literal := Option String

inductive Json where
  | null
  | bool (value : Bool)
  | number (value : Json.Number)
  | text (value : Json.Literal)
  | array (items : List Json)
  | object (members : List (Json.Literal × Json))
deriving Inhabited

namespace Json

def int (i : Int) : Json := .number (.int i)

def str (s : String) : Json := .text (some s)

def record (members : List (String × Json)) : Json :=
  .object (members.map fun (k, v) => (some k, v))

def ofOption (f : α → Json) : Option α → Json
  | none => .null
  | some a => f a

def list (f : α → Json) (xs : List α) : Json := .array (xs.map f)

def asString? : Json → Option String
  | .text t => t
  | _ => none

def asBool? : Json → Option Bool
  | .bool b => some b
  | _ => none

def asInt? : Json → Option Int
  | .number (.int i) => some i
  | _ => none

def asInt64? (j : Json) : Option Int := j.asInt?.filter Text.fits64

def asBelow? (bound : Nat) (j : Json) : Option Nat :=
  j.asInt?.bind fun i => if 0 ≤ i ∧ i < bound then some i.toNat else none

def asList? (f : Json → Option α) : Json → Option (List α)
  | .array items => items.mapM f
  | _ => none

def asOption? (f : Json → Option α) : Json → Option (Option α)
  | .null => some none
  | j => (f j).map some

/-! Reading records: an object with the fields in any order, or an array of them in their order. -/

/-- What to do when a field is missing: a nullable one may be missing from an object only, a
defaulted one also from the end of an array. -/
inductive Need where
  | required
  | nullable
  | defaulted
deriving DecidableEq

/-- The value of a field in an object; a repeated field is refused, others do not matter. -/
def member? (members : List (Literal × Json)) (name : String) (need : Need) : Option (Option Json) :=
  match members.filter fun m => m.1 == some name with
  | [] => if need = .required then none else some none
  | [(_, v)] => some (some v)
  | _ => none

def positions? : List (String × Need) → List Json → Option (List (Option Json))
  | [], [] => some []
  | [], _ :: _ => none
  | (_, need) :: fields, [] =>
    if need = .defaulted then (positions? fields []).map (none :: ·) else none
  | _ :: fields, v :: vs => (positions? fields vs).map (some v :: ·)

def fields? (fields : List (String × Need)) : Json → Option (List (Option Json))
  | .object members =>
    if members.any fun m => m.1.isNone then none
    else fields.mapM fun (name, need) => member? members name need
  | .array items => positions? fields items
  | _ => none

def required? (names : List String) (j : Json) : Option (List Json) :=
  (fields? (names.map fun n => (n, .required)) j).bind fun vs => vs.mapM id

def get? (j : Json) (name : String) : Option Json :=
  match j with
  | .object members => (members.find? fun m => m.1 == some name).map (·.2)
  | _ => none

/-! Which values can be held in memory before it is known what they are for. -/

/-- Whether the nearest double to `digits * 10 ^ exponent` is finite. -/
def isFiniteDecimal (digits : Nat) (exponent : Int) : Bool :=
  let scale : Int := (Nat.toDigits 10 digits).length + exponent
  digits == 0 || scale < 300 ||
    (scale < 400 && digits * Nat.pow 10 exponent.toNat / Nat.pow 10 (-exponent).toNat <
      Nat.pow 2 1024 - Nat.pow 2 970)

def Number.isFinite : Number → Bool
  | .int _ => true
  | .decimal _ digits exponent => isFiniteDecimal digits exponent

/-- The nearest integer to a number that is not negative and whose double is below `2 ^ 64`. -/
def Number.toUnsigned? : Number → Option Nat
  | .int i => if 0 ≤ i then some i.toNat else none
  | .decimal negative digits exponent =>
    let scale : Int := (Nat.toDigits 10 digits).length + exponent
    if digits = 0 then some 0
    else if negative || 30 < scale then none
    else if scale < 0 then some 0
    else
      let up := Nat.pow 10 exponent.toNat
      let down := Nat.pow 10 (-exponent).toNat
      let bound := 0x10000000000000000 - 1024
      if digits * up < bound * down then some ((2 * digits * up + down) / (2 * down)) else none

/-- Whether all numbers have finite doubles, all strings can be read, and arrays and objects nest at
most `depth` deep. -/
def isHeld : Nat → Json → Bool
  | _, .null => true
  | _, .bool _ => true
  | _, .number n => n.isFinite
  | _, .text t => t.isSome
  | 0, _ => false
  | depth + 1, .array items => items.all (isHeld depth)
  | depth + 1, .object members => members.all fun m => m.1.isSome && isHeld depth m.2

def maxDepth : Nat := 127

end Json

end Muster
