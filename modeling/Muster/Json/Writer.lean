import Muster.Json.Value

/-! Writing JSON without spaces. -/

namespace Muster.Json

def escapeChar (c : Char) : List Char :=
  match c with
  | '"' => ['\\', '"']
  | '\\' => ['\\', '\\']
  | '\n' => ['\\', 'n']
  | '\r' => ['\\', 'r']
  | '\t' => ['\\', 't']
  | c =>
    if c.toNat = 8 then ['\\', 'b']
    else if c.toNat = 12 then ['\\', 'f']
    else if c.toNat < 0x20 then
      ['\\', 'u', '0', '0', Nat.digitChar (c.toNat / 16), Nat.digitChar (c.toNat % 16)]
    else [c]

def writeString (s : String) : List Char := '"' :: s.toList.flatMap escapeChar ++ ['"']

/-- A literal that cannot be read is written as half a surrogate pair. -/
def writeLiteral : Literal → List Char
  | some s => writeString s
  | none => ['"', '\\', 'u', 'd', '8', '0', '0', '"']

def writeNat (n : Nat) : List Char := Nat.toDigits 10 n

def writeInt (i : Int) : List Char :=
  if i < 0 then '-' :: writeNat i.natAbs else writeNat i.natAbs

/-- Short fractions are written with a point, other decimals with an exponent. -/
def Number.write : Number → List Char
  | .int i => writeInt i
  | .decimal negative digits exponent =>
    let ds := writeNat digits
    let places := (-exponent).toNat
    let body :=
      if exponent < 0 ∧ places ≤ 17 then
        let ds := List.replicate (places + 1 - ds.length) '0' ++ ds
        ds.take (ds.length - places) ++ '.' :: ds.drop (ds.length - places)
      else ds ++ 'e' :: writeInt exponent
    if negative then '-' :: body else body

mutual

def writeChars : Json → List Char
  | .null => ['n', 'u', 'l', 'l']
  | .bool true => ['t', 'r', 'u', 'e']
  | .bool false => ['f', 'a', 'l', 's', 'e']
  | .number n => n.write
  | .text t => writeLiteral t
  | .array [] => ['[', ']']
  | .array (v :: vs) => '[' :: writeChars v ++ writeItems vs
  | .object [] => ['{', '}']
  | .object (m :: ms) => '{' :: writeMember m ++ writeMembers ms

def writeItems : List Json → List Char
  | [] => [']']
  | v :: vs => ',' :: writeChars v ++ writeItems vs

def writeMember : Literal × Json → List Char
  | (name, v) => writeLiteral name ++ ':' :: writeChars v

def writeMembers : List (Literal × Json) → List Char
  | [] => ['}']
  | m :: ms => ',' :: writeMember m ++ writeMembers ms

end

def write (j : Json) : String := String.ofList j.writeChars

end Muster.Json
