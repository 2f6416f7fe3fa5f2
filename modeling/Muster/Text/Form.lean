import Muster.Text
import Muster.Text.Bytes

/-! The form encoding of names and values in a query. -/

namespace Muster.Text.Form

def isPlain (b : Nat) : Bool :=
  (0x30 ≤ b && b ≤ 0x39) || (0x41 ≤ b && b ≤ 0x5A) || (0x61 ≤ b && b ≤ 0x7A) ||
    b == 0x2A || b == 0x2D || b == 0x2E || b == 0x5F

def upperHex (n : Nat) : Char := (Nat.digitChar n).toUpper

def percent (b : Nat) : List Char := ['%', upperHex (b / 16), upperHex (b % 16)]

def encodeByte (b : UInt8) : List Char :=
  if b = 0x20 then ['+'] else if isPlain b.toNat then [Char.ofNat b.toNat] else percent b.toNat

def encodeText (s : String) : List Char := (bytesOf s).flatMap encodeByte

def encodePair : String × String → List Char
  | (name, value) => encodeText name ++ '=' :: encodeText value

def encode : List (String × String) → List Char
  | [] => []
  | [p] => encodePair p
  | p :: q :: ps => encodePair p ++ '&' :: encode (q :: ps)

/-- Two hexadecimal digits after a percent sign are a byte; a percent sign without them stays. -/
def percentDecode : List Char → Bytes
  | [] => []
  | '%' :: a :: b :: cs =>
    match digitValue 16 a, digitValue 16 b with
    | some x, some y => UInt8.ofNat (16 * x + y) :: percentDecode cs
    | _, _ => 0x25 :: percentDecode (a :: b :: cs)
  | c :: cs => String.utf8EncodeChar c ++ percentDecode cs

def decodeText (cs : List Char) : String :=
  String.ofList (ofUtf8Lossy (percentDecode (cs.map fun c => if c = '+' then ' ' else c)))

/-- A part without an equals sign is a name with an empty value. -/
def decodePair (cs : List Char) : String × String :=
  let (name, value) := (cut? (· = '=') cs).getD (cs, [])
  (decodeText name, decodeText value)

def decode (cs : List Char) : List (String × String) :=
  ((pieces '&' cs).filter fun p => !p.isEmpty).map decodePair

end Muster.Text.Form
