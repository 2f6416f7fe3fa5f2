import Muster.Text
import Muster.Toml.Value

/-! TOML strings, in one line or several, with escapes or without, and keys. -/

namespace Muster.Toml

def isAllowed (c : Char) : Bool := c == '\t' || (0x20 ≤ c.toNat && c.toNat != 0x7F)

def isSpace (c : Char) : Bool := c == ' ' || c == '\t'

def scalar? (cs : List Char) : Option Char := do
  let n ← Text.readNat 16 cs
  if n < 0xD800 ∨ (0xE000 ≤ n ∧ n < 0x110000) then some (Char.ofNat n) else none

def escape? : Char → Option Char
  | 'b' => some '\x08'
  | 't' => some '\t'
  | 'n' => some '\n'
  | 'f' => some '\x0c'
  | 'r' => some '\r'
  | '"' => some '"'
  | '\\' => some '\\'
  | _ => none

def takeEscape : List Char → Option (Char × List Char)
  | 'u' :: a :: b :: c :: d :: cs => (scalar? [a, b, c, d]).map fun x => (x, cs)
  | 'U' :: a :: b :: c :: d :: e :: f :: g :: h :: cs =>
    (scalar? [a, b, c, d, e, f, g, h]).map fun x => (x, cs)
  | c :: cs => (escape? c).map fun x => (x, cs)
  | [] => none

def takeNewline : List Char → Option (List Char)
  | '\n' :: cs => some cs
  | '\r' :: '\n' :: cs => some cs
  | _ => none

def dropSpace : Nat → List Char → List Char
  | 0, cs => cs
  | fuel + 1, cs =>
    let cs := cs.dropWhile isSpace
    (takeNewline cs).elim cs (dropSpace fuel)

def takeQuoted : Nat → List Char → List Char → Option (String × List Char)
  | 0, _, _ => none
  | fuel + 1, seen, cs =>
    match cs with
    | [] => none
    | '"' :: cs => some (String.ofList seen.reverse, cs)
    | '\\' :: cs => (takeEscape cs).bind fun (c, cs) => takeQuoted fuel (c :: seen) cs
    | c :: cs => if isAllowed c then takeQuoted fuel (c :: seen) cs else none

def takeLiteral : List Char → List Char → Option (String × List Char)
  | _, [] => none
  | seen, '\'' :: cs => some (String.ofList seen.reverse, cs)
  | seen, c :: cs => if isAllowed c then takeLiteral (c :: seen) cs else none

/-- The end of a string in several lines: up to two quotes before the last three belong to it. -/
def closing (quote : Char) (seen cs : List Char) : String × List Char :=
  let extra := (cs.takeWhile (· = quote)).take 2
  (String.ofList (extra ++ seen).reverse, cs.drop extra.length)

def takeLongQuoted : Nat → List Char → List Char → Option (String × List Char)
  | 0, _, _ => none
  | fuel + 1, seen, cs =>
    match cs with
    | [] => none
    | '"' :: '"' :: '"' :: cs => some (closing '"' seen cs)
    | '\\' :: cs =>
      match takeNewline (cs.dropWhile isSpace) with
      | some rest => takeLongQuoted fuel seen (dropSpace rest.length.succ rest)
      | none => (takeEscape cs).bind fun (c, cs) => takeLongQuoted fuel (c :: seen) cs
    | c :: rest =>
      match takeNewline cs with
      | some rest => takeLongQuoted fuel ('\n' :: seen) rest
      | none => if isAllowed c then takeLongQuoted fuel (c :: seen) rest else none

def takeLongLiteral : Nat → List Char → List Char → Option (String × List Char)
  | 0, _, _ => none
  | fuel + 1, seen, cs =>
    match cs with
    | [] => none
    | '\'' :: '\'' :: '\'' :: cs => some (closing '\'' seen cs)
    | c :: rest =>
      match takeNewline cs with
      | some rest => takeLongLiteral fuel ('\n' :: seen) rest
      | none => if isAllowed c then takeLongLiteral fuel (c :: seen) rest else none

/-- A string in one of the four notations. A line end right after three quotes does not count. -/
def takeText (cs : List Char) : Option (String × List Char) :=
  let fuel := cs.length.succ
  match cs with
  | '"' :: '"' :: '"' :: cs => takeLongQuoted fuel [] ((takeNewline cs).getD cs)
  | '\'' :: '\'' :: '\'' :: cs => takeLongLiteral fuel [] ((takeNewline cs).getD cs)
  | '"' :: cs => takeQuoted fuel [] cs
  | '\'' :: cs => takeLiteral [] cs
  | _ => none

def isBareKey (c : Char) : Bool :=
  ('0' ≤ c && c ≤ '9') || ('a' ≤ c && c ≤ 'z') || ('A' ≤ c && c ≤ 'Z') || c == '-' || c == '_'

def takeSimpleKey (cs : List Char) : Option (String × List Char) :=
  match cs with
  | '"' :: cs => takeQuoted cs.length.succ [] cs
  | '\'' :: cs => takeLiteral [] cs
  | cs =>
    let key := cs.takeWhile isBareKey
    if key.isEmpty then none else some (String.ofList key, cs.dropWhile isBareKey)

def takeKey : Nat → List Char → Option (List String × List Char)
  | 0, _ => none
  | fuel + 1, cs => do
    let (key, cs) ← takeSimpleKey (cs.dropWhile isSpace)
    match cs.dropWhile isSpace with
    | '.' :: cs => (takeKey fuel cs).map fun (keys, cs) => (key :: keys, cs)
    | cs => some ([key], cs)

end Muster.Toml
