/-! Texts as bytes. The decoder of UTF-8 turns bytes into characters and marks each ill-formed part. -/

namespace Muster.Text

abbrev Bytes := List UInt8

def utf8 (cs : List Char) : Bytes := cs.flatMap String.utf8EncodeChar

def bytesOf (s : String) : Bytes := utf8 s.toList

/-- A character whose first bytes were read: how many are left after the next one, the bits so far,
and what the next byte may be. -/
structure Pending where
  left : Nat
  bits : Nat
  low : Nat
  high : Nat
deriving Repr, DecidableEq

def startChar (b : Nat) : List (Option Char) × Option Pending :=
  if b < 0x80 then ([some (Char.ofNat b)], none)
  else if 0xC2 ≤ b ∧ b < 0xE0 then ([], some ⟨0, b - 0xC0, 0x80, 0xBF⟩)
  else if 0xE0 ≤ b ∧ b < 0xF0 then
    ([], some ⟨1, b - 0xE0, if b = 0xE0 then 0xA0 else 0x80, if b = 0xED then 0x9F else 0xBF⟩)
  else if 0xF0 ≤ b ∧ b < 0xF5 then
    ([], some ⟨2, b - 0xF0, if b = 0xF0 then 0x90 else 0x80, if b = 0xF4 then 0x8F else 0xBF⟩)
  else ([none], none)

/-- A byte that does not go on with a character ends an ill-formed part and begins a new one. -/
def stepChar (b : Nat) : Option Pending → List (Option Char) × Option Pending
  | none => startChar b
  | some p =>
    if p.low ≤ b ∧ b ≤ p.high then
      let bits := p.bits * 64 + (b - 0x80)
      match p.left with
      | 0 => ([some (Char.ofNat bits)], none)
      | left + 1 => ([], some ⟨left, bits, 0x80, 0xBF⟩)
    else
      let (cs, next) := startChar b
      (none :: cs, next)

def decodeFrom (p : Option Pending) : Bytes → List (Option Char)
  | [] => if p.isSome then [none] else []
  | b :: bs =>
    let (cs, next) := stepChar b.toNat p
    cs ++ decodeFrom next bs

def ofUtf8? (bs : Bytes) : Option (List Char) := (decodeFrom none bs).mapM id

/-- The characters, with a replacement character for each ill-formed part. -/
def ofUtf8Lossy (bs : Bytes) : List Char := (decodeFrom none bs).map (·.getD (Char.ofNat 0xFFFD))

end Muster.Text

namespace Muster.Text.Base64Url

/-! Base64 with the alphabet for URLs and without padding. -/

def alphabet : List Char :=
  "ABCDEFGHIJKLMNOPQRSTUVWXYZabcdefghijklmnopqrstuvwxyz0123456789-_".toList

def digit (n : Nat) : Char := alphabet.getD n 'A'

def value? (c : Char) : Option Nat := alphabet.findIdx? (· = c)

/-- Three bytes at a time become four digits; the last one or two become two or three. -/
def encode : Bytes → List Char
  | a :: b :: c :: rest =>
    let n := a.toNat * 65536 + b.toNat * 256 + c.toNat
    digit (n / 262144) :: digit (n / 4096 % 64) :: digit (n / 64 % 64) :: digit (n % 64) :: encode rest
  | [a, b] =>
    let n := a.toNat * 1024 + b.toNat * 4
    [digit (n / 4096), digit (n / 64 % 64), digit (n % 64)]
  | [a] =>
    let n := a.toNat * 16
    [digit (n / 64), digit (n % 64)]
  | [] => []

/-- Bits that belong to no byte must be zero, and a single last digit says nothing. -/
def decodeValues : List Nat → Option Bytes
  | a :: b :: c :: d :: rest =>
    let n := a * 262144 + b * 4096 + c * 64 + d
    (decodeValues rest).map fun bs =>
      UInt8.ofNat (n / 65536) :: UInt8.ofNat (n / 256 % 256) :: UInt8.ofNat (n % 256) :: bs
  | [a, b, c] =>
    let n := a * 4096 + b * 64 + c
    if n % 4 = 0 then some [UInt8.ofNat (n / 1024), UInt8.ofNat (n / 4 % 256)] else none
  | [a, b] =>
    let n := a * 64 + b
    if n % 16 = 0 then some [UInt8.ofNat (n / 16)] else none
  | [_] => none
  | [] => some []

def decode? (cs : List Char) : Option Bytes := (cs.mapM value?).bind decodeValues

end Muster.Text.Base64Url

namespace Muster.Text

/-! The order of names: byte by byte in UTF-8, with ASCII letters of either case alike. -/

def foldByte (b : UInt8) : UInt8 := if 65 ≤ b ∧ b ≤ 90 then b + 32 else b

/-- The order of the first bytes that differ. Nothing behind a zero byte is looked at. -/
def compareBytes : Bytes → Bytes → Ordering
  | a :: as, b :: bs =>
    if foldByte a = foldByte b then if a = 0 then .eq else compareBytes as bs
    else compare (foldByte a) (foldByte b)
  | _, _ => .eq

def collate (s t : String) : Ordering :=
  (compareBytes (bytesOf s) (bytesOf t)).then (compare (bytesOf s).length (bytesOf t).length)

/-- A list in the order of names; what has the same name keeps its order. -/
def sortByName (name : α → String) (xs : List α) : List α :=
  xs.mergeSort fun a b => (collate (name a) (name b)).isLE

end Muster.Text
