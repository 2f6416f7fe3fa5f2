import Muster.Json.Value
import Muster.Text

/-! Display colours and their hexadecimal notation. -/

namespace Muster

structure Color where
  r : UInt8
  g : UInt8
  b : UInt8
  a : UInt8
deriving Repr, DecidableEq

namespace Color

def rgb (r g b : UInt8) : Color := ⟨r, g, b, 255⟩

/-- Two hexadecimal digits, or a plus sign and one. -/
def readChannel (c d : Char) : Option UInt8 :=
  match Text.digitValue 16 c, Text.digitValue 16 d with
  | some x, some y => some (UInt8.ofNat (16 * x + y))
  | none, some y => if c = '+' then some (UInt8.ofNat y) else none
  | _, none => none

/-- The digits of a notation: blanks around it and number signs before it do not count. -/
def digits (raw : String) : List Char := (Text.trimChars raw.toList).dropWhile (· = '#')

inductive HexError where
  | shape
  | digit
deriving Repr, DecidableEq

/-- Three or four channels; opacity is full when it is not given. -/
def readDigits (cs : List Char) : Except HexError Color :=
  let read (c d : Char) : Except HexError UInt8 := (readChannel c d).elim (.error .digit) .ok
  if cs.all (·.toNat < 128) then
    match cs with
    | [r, r', g, g', b, b'] => return rgb (← read r r') (← read g g') (← read b b')
    | [r, r', g, g', b, b', a, a'] => return ⟨← read r r', ← read g g', ← read b b', ← read a a'⟩
    | _ => .error .shape
  else .error .shape

def HexError.message (raw : String) : HexError → String
  | .shape => s!"Invalid colour '{raw}': expected #rrggbb or #rrggbbaa"
  | .digit => s!"Invalid colour '{raw}': not hexadecimal"

def ofHex (raw : String) : Except HexError Color := readDigits (digits raw)

def hexDigit (n : Nat) : Char := Nat.digitChar n

def writeChannel (x : UInt8) : List Char := [hexDigit (x.toNat / 16), hexDigit (x.toNat % 16)]

/-- Six lower-case digits for an opaque colour and eight for any other. -/
def toHex (c : Color) : String :=
  String.ofList ('#' :: writeChannel c.r ++ writeChannel c.g ++ writeChannel c.b ++
    if c.a = 255 then [] else writeChannel c.a)

def toJson (c : Color) : Json :=
  .record [("r", .int c.r.toNat), ("g", .int c.g.toNat), ("b", .int c.b.toNat), ("a", .int c.a.toNat)]

def ofJson? (j : Json) : Option Color := do
  let channel (j : Json) : Option UInt8 := (j.asBelow? 256).map UInt8.ofNat
  match ← j.required? ["r", "g", "b", "a"] with
  | [r, g, b, a] => return ⟨← channel r, ← channel g, ← channel b, ← channel a⟩
  | _ => none

end Color

end Muster
