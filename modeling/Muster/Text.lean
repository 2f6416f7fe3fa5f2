/-! Texts: blanks and trimming, digits and integers, pieces and lines. -/

namespace Muster.Text

/-! Blank characters (the Unicode property White_Space) and trimming. -/

def isBlank (c : Char) : Bool :=
  let n := c.toNat
  (9 ≤ n && n ≤ 13) || n == 0x20 || n == 0x85 || n == 0xA0 || n == 0x1680 ||
    (0x2000 ≤ n && n ≤ 0x200A) || n == 0x2028 || n == 0x2029 || n == 0x202F || n == 0x205F ||
    n == 0x3000

def trimStart (cs : List Char) : List Char := cs.dropWhile isBlank

def trimEnd (cs : List Char) : List Char := (cs.reverse.dropWhile isBlank).reverse

def trimChars (cs : List Char) : List Char := trimEnd (trimStart cs)

def trim (s : String) : String := String.ofList (trimChars s.toList)

def isBlankText (s : String) : Bool := s.toList.all isBlank

/-! Decimal digits of any script (the Unicode category Nd). -/

/-- The code points of the zeros; the nine digits that follow each are consecutive. -/
def zeros : List Nat :=
  [0x30, 0x660, 0x6F0, 0x7C0, 0x966, 0x9E6, 0xA66, 0xAE6, 0xB66, 0xBE6, 0xC66, 0xCE6, 0xD66,
    0xDE6, 0xE50, 0xED0, 0xF20, 0x1040, 0x1090, 0x17E0, 0x1810, 0x1946, 0x19D0, 0x1A80, 0x1A90,
    0x1B50, 0x1BB0, 0x1C40, 0x1C50, 0xA620, 0xA8D0, 0xA900, 0xA9D0, 0xA9F0, 0xAA50, 0xABF0,
    0xFF10, 0x104A0, 0x10D30, 0x10D40, 0x11066, 0x110F0, 0x11136, 0x111D0, 0x112F0, 0x11450,
    0x114D0, 0x11650, 0x116C0, 0x116D0, 0x116DA, 0x11730, 0x118E0, 0x11950, 0x11BF0, 0x11C50,
    0x11D50, 0x11DA0, 0x11F50, 0x16130, 0x16A60, 0x16AC0, 0x16B50, 0x16D70, 0x1CCF0, 0x1D7CE,
    0x1D7D8, 0x1D7E2, 0x1D7EC, 0x1D7F6, 0x1E140, 0x1E2F0, 0x1E4F0, 0x1E5F1, 0x1E950, 0x1FBF0]

def isDigit (c : Char) : Bool := zeros.any fun z => z ≤ c.toNat && c.toNat < z + 10

def digitValue (base : Nat) (c : Char) : Option Nat :=
  let n := c.toNat
  let v :=
    if 48 ≤ n ∧ n ≤ 57 then n - 48
    else if 97 ≤ n ∧ n ≤ 102 then n - 87
    else if 65 ≤ n ∧ n ≤ 70 then n - 55
    else base
  if v < base then some v else none

/-! Reading integers: one or more ASCII digits, an optional sign, and a range. -/

def readDigits (base acc : Nat) : List Char → Option Nat
  | [] => some acc
  | c :: cs => (digitValue base c).bind fun d => readDigits base (acc * base + d) cs

def readNat (base : Nat) : List Char → Option Nat
  | [] => none
  | cs => readDigits base 0 cs

def readUnsigned (base : Nat) : List Char → Option Nat
  | '+' :: cs => readNat base cs
  | cs => readNat base cs

def readSigned : List Char → Option Int
  | '-' :: cs => (readNat 10 cs).map fun n => -(n : Int)
  | cs => (readUnsigned 10 cs).map Int.ofNat

def fits64 (i : Int) : Bool := -0x8000000000000000 ≤ i && i < 0x8000000000000000

def readInt64 (cs : List Char) : Option Int := (readSigned cs).filter fits64

/-- An unsigned 64-bit integer; a plus sign is allowed, a minus sign is not. -/
def readUInt64 (cs : List Char) : Option Nat := (readUnsigned 10 cs).filter (· < 0x10000000000000000)

/-! Splitting a text at a separator, and its lines. -/

def splitFirst (sep : Char) : List Char → List Char × List (List Char)
  | [] => ([], [])
  | c :: cs =>
    let (p, ps) := splitFirst sep cs
    if c = sep then ([], p :: ps) else (c :: p, ps)

def pieces (sep : Char) (cs : List Char) : List (List Char) :=
  let (p, ps) := splitFirst sep cs
  p :: ps

def chomp (line : List Char) : List Char :=
  if line.getLast? = some '\r' then line.dropLast else line

/-- The lines of a text: each ends at a line feed, and the last may end with the text instead. -/
def lines (cs : List Char) : List (List Char) :=
  let ps := pieces '\n' cs
  ps.dropLast.map chomp ++ ps.getLast?.toList.filter fun l => !l.isEmpty

def cut? (p : Char → Bool) : List Char → Option (List Char × List Char)
  | [] => none
  | c :: cs => if p c then some ([], cs) else (cut? p cs).map fun (a, b) => (c :: a, b)

end Muster.Text
