import Muster.Json.Value
import Muster.Text

/-! The words of a JSON text. -/

namespace Muster.Json

inductive Token where
  | openArray
  | closeArray
  | openObject
  | closeObject
  | comma
  | colon
  | scalar (value : Json)
  | text (value : Literal)

namespace Number

def read? (cs : List Char) : Option Number := do
  let isDigit (c : Char) := '0' ≤ c && c ≤ '9'
  let (negative, cs) := match cs with
    | '-' :: cs => (true, cs)
    | cs => (false, cs)
  let whole := cs.takeWhile isDigit
  let cs := cs.dropWhile isDigit
  if whole.isEmpty || (whole.length > 1 && whole.head? == some '0') then none
  let (fraction, cs) ← match cs with
    | '.' :: cs =>
      let part := cs.takeWhile isDigit
      if part.isEmpty then none else some (some part, cs.dropWhile isDigit)
    | cs => some (none, cs)
  let exponent ← match cs with
    | [] => some none
    | e :: cs => if e = 'e' ∨ e = 'E' then (Text.readSigned cs).map some else none
  let digits ← Text.readNat 10 (whole ++ fraction.getD [])
  match fraction, exponent with
  | none, none =>
    if negative then
      if 0 < digits ∧ digits ≤ 0x8000000000000000 then some (.int (-digits)) else some (.decimal true digits 0)
    else if digits < 0x10000000000000000 then some (.int digits) else some (.decimal false digits 0)
  | _, _ => some (.decimal negative digits (exponent.getD 0 - ((fraction.getD []).length : Int)))

end Number

/-- The characters of code points in which a surrogate pair stands for one character. -/
def joinPairs : List Nat → Option (List Char)
  | [] => some []
  | n :: ns =>
    if 0xD800 ≤ n ∧ n < 0xDC00 then
      match ns with
      | m :: ms =>
        if 0xDC00 ≤ m ∧ m < 0xE000 then
          (joinPairs ms).map (Char.ofNat (0x10000 + (n - 0xD800) * 0x400 + (m - 0xDC00)) :: ·)
        else none
      | [] => none
    else if 0xDC00 ≤ n ∧ n < 0xE000 then none
    else (joinPairs ns).map (Char.ofNat n :: ·)

/-- Where in a word the scanner stands; what it has seen of it is kept in reverse. -/
inductive Scan where
  | between
  | word (seen : List Char)
  | number (seen : List Char)
  | quoted (seen : List Nat)
  | escaped (seen : List Nat)
  | code (seen : List Nat) (left value : Nat)

def isWordChar (c : Char) : Bool := 'a' ≤ c && c ≤ 'z'

def isNumberChar (c : Char) : Bool :=
  ('0' ≤ c && c ≤ '9') || c == '-' || c == '+' || c == '.' || c == 'e' || c == 'E'

def Scan.start (c : Char) : Option (List Token × Scan) :=
  match c with
  | ' ' | '\n' | '\t' | '\r' => some ([], .between)
  | '[' => some ([.openArray], .between)
  | ']' => some ([.closeArray], .between)
  | '{' => some ([.openObject], .between)
  | '}' => some ([.closeObject], .between)
  | ',' => some ([.comma], .between)
  | ':' => some ([.colon], .between)
  | '"' => some ([], .quoted [])
  | c =>
    if c == '-' || ('0' ≤ c && c ≤ '9') then some ([], .number [c])
    else if isWordChar c then some ([], .word [c])
    else none

def wordToken (seen : List Char) : Option Token :=
  match String.ofList seen.reverse with
  | "null" => some (.scalar .null)
  | "true" => some (.scalar (.bool true))
  | "false" => some (.scalar (.bool false))
  | _ => none

def numberToken (seen : List Char) : Option Token :=
  (Number.read? seen.reverse).map fun n => .scalar (.number n)

def quotedToken (seen : List Nat) : Token :=
  .text ((joinPairs seen.reverse).map String.ofList)

def escapeValue : Char → Option Nat
  | '"' => some 0x22
  | '\\' => some 0x5C
  | '/' => some 0x2F
  | 'b' => some 8
  | 'f' => some 12
  | 'n' => some 10
  | 'r' => some 13
  | 't' => some 9
  | _ => none

def Scan.step (c : Char) : Scan → Option (List Token × Scan)
  | .between => start c
  | .word seen =>
    if isWordChar c then some ([], .word (c :: seen))
    else do
      let t ← wordToken seen
      let (ts, next) ← start c
      return (t :: ts, next)
  | .number seen =>
    if isNumberChar c then some ([], .number (c :: seen))
    else do
      let t ← numberToken seen
      let (ts, next) ← start c
      return (t :: ts, next)
  | .quoted seen =>
    if c = '"' then some ([quotedToken seen], .between)
    else if c = '\\' then some ([], .escaped seen)
    else if c.toNat < 0x20 then none
    else some ([], .quoted (c.toNat :: seen))
  | .escaped seen =>
    if c = 'u' then some ([], .code seen 3 0)
    else (escapeValue c).map fun n => ([], .quoted (n :: seen))
  | .code seen left value => do
    let d ← Text.digitValue 16 c
    let value := value * 16 + d
    return ([], match left with
      | 0 => .quoted (value :: seen)
      | left + 1 => .code seen left value)

def Scan.finish : Scan → Option (List Token)
  | .between => some []
  | .word seen => (wordToken seen).map ([·])
  | .number seen => (numberToken seen).map ([·])
  | _ => none

def tokensFrom (s : Scan) : List Char → Option (List Token)
  | [] => s.finish
  | c :: cs => do
    let (ts, next) ← s.step c
    return ts ++ (← tokensFrom next cs)

def tokens (cs : List Char) : Option (List Token) := tokensFrom .between cs

end Muster.Json
