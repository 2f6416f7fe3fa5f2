import Muster.Text
import Muster.Time
import Muster.Toml.Value

/-! TOML numbers, dates and times, and booleans: values that are one word. -/

namespace Muster.Toml

def isWordChar (c : Char) : Bool :=
  ('0' ≤ c && c ≤ '9') || ('a' ≤ c && c ≤ 'z') || ('A' ≤ c && c ≤ 'Z') || c == '+' || c == '-' ||
    c == '_' || c == '.' || c == ':'

/-- Digits in which single underscores stand between two digits, without the underscores. -/
def digits? (base : Nat) (cs : List Char) : Option (List Char) :=
  let parts := Text.pieces '_' cs
  if parts.all fun p => !p.isEmpty && p.all fun c => (Text.digitValue base c).isSome then
    some parts.flatten
  else none

def unsign : List Char → List Char
  | '+' :: cs | '-' :: cs => cs
  | cs => cs

def isPlainWhole (cs : List Char) : Bool := cs.length == 1 || cs.head? != some '0'

def whole? (cs : List Char) : Option (List Char) := (digits? 10 cs).filter isPlainWhole

def prefixed? (base : Nat) (cs : List Char) : Option Int := do
  let n ← Text.readNat base (← digits? base cs)
  if n < 0x8000000000000000 then some n else none

def integer? : List Char → Option Int
  | '0' :: 'x' :: cs => prefixed? 16 cs
  | '0' :: 'o' :: cs => prefixed? 8 cs
  | '0' :: 'b' :: cs => prefixed? 2 cs
  | cs => do
    let n ← Text.readNat 10 (← whole? (unsign cs))
    let i : Int := if cs.head? = some '-' then -n else n
    if Text.fits64 i then some i else none

def overflows (digits : List Char) (exponent : Int) : Bool :=
  let digits := digits.dropWhile (· = '0')
  match Text.readNat 10 digits with
  | none => false
  | some n =>
    let scale : Int := digits.length + exponent
    if scale > 400 then true
    else if scale < 300 then false
    else Nat.pow 2 1024 - Nat.pow 2 970 ≤ n * Nat.pow 10 exponent.toNat / Nat.pow 10 (-exponent).toNat

/-- A whole part with a fraction or an exponent or both. Positive numbers must not be too large. -/
def isReal (cs : List Char) : Bool :=
  let body := unsign cs
  if body = ['i', 'n', 'f'] || body = ['n', 'a', 'n'] then true
  else
    let (mantissa, exponent) := match Text.cut? (fun c => c = 'e' || c = 'E') body with
      | some (m, e) => (m, some e)
      | none => (body, none)
    let (whole, fraction) := match Text.cut? (· = '.') mantissa with
      | some (w, f) => (w, some f)
      | none => (mantissa, none)
    match whole? whole, digits? 10 (fraction.getD ['0']), digits? 10 (unsign (exponent.getD ['0'])) with
    | some w, some f, some e =>
      let f := if fraction.isSome then f else []
      let size : Int := ((Text.readNat 10 e).getD 0 : Nat)
      let size := if (exponent.getD []).head? = some '-' then -size else size
      (fraction.isSome || exponent.isSome) &&
        (cs.head? == some '-' || !overflows (w ++ f) (size - f.length))
    | _, _, _ => false

def two? (high : Nat) : List Char → Option (Nat × List Char)
  | a :: b :: cs => (Text.readNat 10 [a, b]).bind fun n => if n ≤ high then some (n, cs) else none
  | _ => none

def char? (c : Char) : List Char → Option (List Char)
  | [] => none
  | d :: cs => if c = d then some cs else none

def time? (cs : List Char) : Option (List Char) := do
  let (_, cs) ← two? 23 cs
  let (_, cs) ← two? 59 (← char? ':' cs)
  let (_, cs) ← two? 60 (← char? ':' cs)
  match cs with
  | '.' :: cs =>
    let rest := cs.dropWhile fun c => '0' ≤ c && c ≤ '9'
    if rest.length = cs.length then none else some rest
  | cs => some cs

def date? (cs : List Char) : Option (List Char) := do
  let year ← Text.readNat 10 (cs.take 4)
  let (month, rest) ← two? 12 (← char? '-' (cs.drop 4))
  let (day, rest) ← two? 31 (← char? '-' rest)
  if (Date.mk year month day).isValid then some rest else none

def isOffset : List Char → Bool
  | [] => true
  | ['Z'] | ['z'] => true
  | c :: cs =>
    (c = '+' || c = '-') &&
      (((two? 23 cs).bind fun (_, cs) => char? ':' cs).bind (two? 59)).elim false fun (_, cs) => cs.isEmpty

def isMoment (cs : List Char) : Bool :=
  time? cs == some [] ||
    match date? cs with
    | some [] => true
    | some (t :: rest) => (t = 'T' || t = 't' || t = ' ') && (time? rest).elim false isOffset
    | none => false

def word? (cs : List Char) : Option Toml :=
  if cs = ['t', 'r', 'u', 'e'] then some (.boolean true)
  else if cs = ['f', 'a', 'l', 's', 'e'] then some (.boolean false)
  else if isMoment cs then some .moment
  else if isReal cs then some .real
  else (integer? cs).map .integer

/-- Takes a value that is one word; a date and a time may have a space between them. -/
def takeWord? (cs : List Char) : Option (Toml × List Char) :=
  let first := cs.takeWhile isWordChar
  let rest := cs.dropWhile isWordChar
  let second := match rest with
    | ' ' :: more => more.takeWhile isWordChar
    | _ => []
  if date? first == some [] && (time? second).isSome then
    (word? (first ++ ' ' :: second)).map fun v => (v, rest.drop (second.length + 1))
  else (word? first).map fun v => (v, rest)

end Muster.Toml
