import Muster.Text
import Muster.Text.Form

/-! Hosts of web addresses, and how the characters of an address are escaped. -/

namespace Muster.Url

/-! Percent escapes in the parts of a web address. -/

/-- Control characters, characters outside ASCII and those of a set are escaped. -/
def escapeChar (set : List Char) (c : Char) : List Char :=
  if c.toNat < 0x20 || 0x7F ≤ c.toNat || set.contains c then
    (String.utf8EncodeChar c).flatMap fun b => Text.Form.percent b.toNat
  else [c]

def escape (set cs : List Char) : List Char := cs.flatMap (escapeChar set)

def inFragment : List Char := [' ', '"', '<', '>', '\x60']

def inPath : List Char := inFragment ++ ['#', '?', '{', '}']

def inQuery (special : Bool) : List Char :=
  [' ', '"', '#', '<', '>'] ++ if special then ['\''] else []

def inUser : List Char := inPath ++ ['/', ':', ';', '=', '@', '[', '\\', ']', '^', '|']

end Muster.Url

namespace Muster.Url.Punycode

/-! Labels of domain names in ASCII. The characters that are not in ASCII follow the others as steps
through all the ways to put them in, in numbers whose digits have base 36. -/

def digit (d : Nat) : Char := Char.ofNat (if d < 26 then 97 + d else 22 + d)

def threshold (bias k : Nat) : Nat := min 26 (max 1 (k - bias))

def writeNumber (bias k n : Nat) : List Char :=
  let t := threshold bias k
  if n < t then [digit n]
  else digit (t + (n - t) % (36 - t)) :: writeNumber bias (k + 36) ((n - t) / (36 - t))
termination_by n
decreasing_by
  have h : 1 ≤ threshold bias k := by unfold threshold; omega
  have := Nat.div_le_self (n - threshold bias k) (36 - threshold bias k)
  omega

def shrink (delta k : Nat) : Nat :=
  if delta ≤ 455 then k + 36 * delta / (delta + 38) else shrink (delta / 35) (k + 36)
termination_by delta
decreasing_by exact Nat.div_lt_self (by omega) (by omega)

def adapt (delta count : Nat) (first : Bool) : Nat :=
  let delta := if first then delta / 700 else delta / 2
  shrink (delta + delta / count) 0

/-- What was written, the distance since the last step, the bias, and how many characters are in. -/
structure State where
  out : List Char
  delta : Nat
  bias : Nat
  handled : Nat

def pass (plain n : Nat) (s : State) (c : Char) : State :=
  if c.toNat < n then { s with delta := s.delta + 1 }
  else if c.toNat = n then
    ⟨s.out ++ writeNumber s.bias 36 s.delta, 0, adapt s.delta (s.handled + 1) (s.handled == plain),
      s.handled + 1⟩
  else s

def putIn (cs : List Char) (plain n : Nat) : List Nat → State → State
  | [], s => s
  | m :: ms, s =>
    let s := cs.foldl (pass plain m) { s with delta := s.delta + (m - n) * (s.handled + 1) }
    putIn cs plain (m + 1) ms { s with delta := s.delta + 1 }

def isPlain (c : Char) : Bool := c.toNat < 0x80

def encode (cs : List Char) : List Char :=
  let plain := cs.filter isPlain
  let codes := ((cs.filter (!isPlain ·)).map Char.toNat).mergeSort.eraseDups
  let out := if plain.isEmpty then [] else plain ++ ['-']
  (putIn cs plain.length 0x80 codes ⟨out, 0, 72, plain.length⟩).out

/-- A label as it is if it is in ASCII, and marked as encoded if it is not. -/
def label (cs : List Char) : List Char :=
  if cs.all isPlain then cs else ['x', 'n', '-', '-'] ++ encode cs

end Muster.Url.Punycode

namespace Muster

/-! Hosts of web addresses: names, and numeric addresses of both kinds. -/

inductive UrlError where
  | relative
  | emptyHost
  | port
  | ipv4
  | ipv6
  | name
  | hostCharacter
deriving Repr, DecidableEq

def UrlError.message : UrlError → String
  | .relative => "relative URL without a base"
  | .emptyHost => "empty host"
  | .port => "invalid port number"
  | .ipv4 => "invalid IPv4 address"
  | .ipv6 => "invalid IPv6 address"
  | .name => "invalid international domain name"
  | .hostCharacter => "invalid domain character"

namespace Url

/-- A number in base sixteen, eight or ten, as its first digits tell. -/
def readPart : List Char → Option Nat
  | ['0', 'x'] | ['0', 'X'] => some 0
  | '0' :: 'x' :: cs | '0' :: 'X' :: cs => Text.readNat 16 cs
  | '0' :: c :: cs => Text.readNat 8 (c :: cs)
  | cs => Text.readNat 10 cs

/-- The parts between points; a point at the end does not count. -/
def parts (cs : List Char) : List (List Char) :=
  let ps := Text.pieces '.' cs
  if 1 < ps.length ∧ ps.getLast? = some [] then ps.dropLast else ps

def isNumeric (cs : List Char) : Bool :=
  match (parts cs).getLast? with
  | some (c :: p) => (c :: p).all (fun d => '0' ≤ d && d ≤ '9') ||
      ((p.head? == some 'x' || p.head? == some 'X') && (readPart (c :: p)).isSome)
  | _ => false

/-- All numbers but the last are bytes, and the last stands for all bytes that are left. -/
def joinParts : List Nat → Nat → Option Nat
  | [], _ => none
  | [n], left => if n < 256 ^ left then some n else none
  | n :: ns, left => if n < 256 then (joinParts ns (left - 1)).map (n * 256 ^ (left - 1) + ·) else none

def readIpv4 (cs : List Char) : Option Nat :=
  let ps := parts cs
  if 4 < ps.length then none else (ps.mapM readPart).bind fun ns => joinParts ns 4

def writeIpv4 (n : Nat) : List Char :=
  let byte (k : Nat) := Nat.toDigits 10 (n / Nat.pow 256 k % 256)
  byte 3 ++ '.' :: byte 2 ++ '.' :: byte 1 ++ '.' :: byte 0

/-- One group of an address of the sixth version, or two when it is written like the fourth. -/
def readGroup (last : Bool) (cs : List Char) : Option (List Nat) :=
  if cs.length ≤ 4 ∧ (Text.readNat 16 cs).isSome then (Text.readNat 16 cs).map ([·])
  else if last ∧ cs.contains '.' then
    let ps := Text.pieces '.' cs
    if ps.length = 4 ∧ ps.all fun p => p.length = 1 ∨ p.head? ≠ some '0' then do
      let ns ← ps.mapM (Text.readNat 10)
      if ns.all (· < 256) then some [ns.getD 0 0 * 256 + ns.getD 1 0, ns.getD 2 0 * 256 + ns.getD 3 0]
      else none
    else none
  else none

def readGroups : List (List Char) → Option (List Nat)
  | [] => some []
  | [p] => readGroup true p
  | p :: ps => do return (← readGroup false p) ++ (← readGroups ps)

def groupsOf (cs : List Char) : Option (List Nat) :=
  if cs.isEmpty then some [] else readGroups (Text.pieces ':' cs)

def splitDouble : List Char → Option (List Char × List Char)
  | ':' :: ':' :: cs => some ([], cs)
  | c :: cs => (splitDouble cs).map fun (a, b) => (c :: a, b)
  | [] => none

def readIpv6 (cs : List Char) : Option (List Nat) :=
  match splitDouble cs with
  | none => (groupsOf cs).filter fun gs => gs.length = 8
  | some (a, b) => do
    let front ← groupsOf a
    let back ← groupsOf b
    if front.length + back.length < 8 ∧ !a.contains '.' then
      some (front ++ List.replicate (8 - front.length - back.length) 0 ++ back)
    else none

def zeroRuns : List Nat → List Nat
  | [] => []
  | n :: ns =>
    let rest := zeroRuns ns
    (if n = 0 then rest.headD 0 + 1 else 0) :: rest

def joinGroups (gs : List Nat) : List Char :=
  [':'].intercalate (gs.map (Nat.toDigits 16))

/-- The first longest run of at least two zeros is left out. -/
def writeIpv6 (gs : List Nat) : List Char :=
  let runs := zeroRuns gs
  let longest := runs.foldl max 0
  if longest < 2 then joinGroups gs
  else
    let start := runs.findIdx (· = longest)
    joinGroups (gs.take start) ++ ':' :: ':' :: joinGroups (gs.drop (start + longest))

def isForbidden (c : Char) : Bool :=
  c.toNat = 0 || ['\t', '\n', '\r', ' ', '#', '/', ':', '<', '>', '?', '@', '[', '\\', ']', '^', '|'].contains c

def smallLetter (c : Char) : Char :=
  let n := c.toNat
  if (0xC0 ≤ n && n ≤ 0xDE && n != 0xD7) || (0x391 ≤ n && n ≤ 0x3A9) || (0x410 ≤ n && n ≤ 0x42F) then
    Char.ofNat (n + 0x20)
  else if 0x400 ≤ n && n ≤ 0x40F then Char.ofNat (n + 0x50)
  else c.toLower

def isRefused (c : Char) : Bool :=
  isForbidden c || c.toNat < 0x20 || c == '%' || (0x7F ≤ c.toNat && c.toNat < 0xA0) || Text.isBlank c ||
    c.toNat == 0xFFFD

/-- The host of a common scheme: a name in small letters and in ASCII, or a number. -/
def readName (cs : List Char) : Except UrlError (List Char) :=
  match Text.ofUtf8? (Text.Form.percentDecode cs) with
  | none => .error .name
  | some name =>
    let name := name.map smallLetter
    if name.any isRefused then .error .name
    else
      let name := ['.'].intercalate ((Text.pieces '.' name).map Punycode.label)
      if name.isEmpty then .error .emptyHost
      else if isNumeric name then
        match readIpv4 name with
        | some n => .ok (writeIpv4 n)
        | none => .error .ipv4
      else .ok name

def readHost (special : Bool) (cs : List Char) : Except UrlError (List Char) :=
  if cs.head? = some '[' then
    match if cs.getLast? = some ']' then readIpv6 cs.dropLast.tail else none with
    | some gs => .ok ('[' :: writeIpv6 gs ++ [']'])
    | none => .error .ipv6
  else if special then readName cs
  else if cs.any isForbidden then .error .hostCharacter
  else .ok (escape [] cs)

end Url

end Muster
