import Muster.Text

/-! Dates of the calendar, instants in UTC and spans of time, with their texts. -/

namespace Muster

/-! Dates of the proleptic Gregorian calendar, counted in days from the first of January of year 0. -/

structure Date where
  year : Int
  month : Nat
  day : Nat
deriving Repr, DecidableEq

namespace Date

def isLeap (year : Int) : Bool := year % 4 == 0 && (year % 100 != 0 || year % 400 == 0)

def beforeYear (year : Int) : Int :=
  365 * year + (year - 1) / 4 - (year - 1) / 100 + (year - 1) / 400 + 1

/-- Days of a year before the first of a month; month 13 gives the length of the year. -/
def beforeMonth (leap : Bool) (month : Nat) : Nat :=
  let days := [0, 0, 31, 59, 90, 120, 151, 181, 212, 243, 273, 304, 334, 365].getD month 365
  if leap && 2 < month then days + 1 else days

def monthLength (leap : Bool) (month : Nat) : Nat :=
  beforeMonth leap (month + 1) - beforeMonth leap month

def isValid (d : Date) : Bool :=
  1 ≤ d.month && d.month ≤ 12 && 1 ≤ d.day && d.day ≤ monthLength (isLeap d.year) d.month

def toDays (d : Date) : Int :=
  beforeYear d.year + beforeMonth (isLeap d.year) d.month + (d.day : Int) - 1

/-- The year that a day falls in: the estimate by mean length is off by one at most. -/
def yearOf (days : Int) : Int :=
  let guess := days * 400 / 146097
  if beforeYear (guess + 1) ≤ days then guess + 1
  else if beforeYear guess ≤ days then guess
  else guess - 1

def monthOf (leap : Bool) (dayOfYear : Nat) : Nat → Nat
  | 0 => 0
  | month + 1 => if beforeMonth leap (month + 1) ≤ dayOfYear then month + 1
    else monthOf leap dayOfYear month

def ofDays (days : Int) : Date :=
  let year := yearOf days
  let dayOfYear := (days - beforeYear year).toNat
  let month := monthOf (isLeap year) dayOfYear 12
  ⟨year, month, dayOfYear - beforeMonth (isLeap year) month + 1⟩

end Date

/-! Instants in UTC with leap seconds, and their text in the manner of RFC 3339. -/

/-- Seconds since 1970 and nanoseconds. In a leap second the second is the one before it and the
nanoseconds are a billion more. -/
structure Instant where
  seconds : Int
  nanos : Nat
deriving Repr, DecidableEq

namespace Instant

def epochDay : Int := 719528

def billion : Nat := 1000000000

def isLeap (t : Instant) : Bool := billion ≤ t.nanos

def le (s t : Instant) : Bool := s.seconds < t.seconds || (s.seconds == t.seconds && s.nanos ≤ t.nanos)

/-- Leaving a leap second forwards counts from the second before it, backwards from the one after. -/
def addSeconds (t : Instant) (n : Int) : Instant :=
  if n = 0 then t
  else if t.isLeap then ⟨if 0 < n then t.seconds + n else t.seconds + 1 + n, t.nanos - billion⟩
  else ⟨t.seconds + n, t.nanos⟩

def truncate (t : Instant) : Instant := ⟨t.seconds, if t.isLeap then billion else 0⟩

def day (t : Instant) : Int := t.seconds / 86400 + epochDay

def secondOfDay (t : Instant) : Nat := (t.seconds % 86400).toNat

def year (t : Instant) : Int := (Date.ofDays t.day).year

def padded (width n : Nat) : List Char :=
  let ds := Nat.toDigits 10 n
  List.replicate (width - ds.length) '0' ++ ds

/-- Four digits, or a sign and at least four for a year that has not four. -/
def yearText (y : Int) : List Char :=
  if 0 ≤ y ∧ y ≤ 9999 then padded 4 y.toNat
  else (if y < 0 then '-' else '+') :: padded 4 y.natAbs

def fractionText (nanos : Nat) : List Char :=
  if nanos = 0 then []
  else if nanos % 1000000 = 0 then '.' :: padded 3 (nanos / 1000000)
  else if nanos % 1000 = 0 then '.' :: padded 6 (nanos / 1000)
  else '.' :: padded 9 nanos

def wholeText (t : Instant) : List Char :=
  let d := Date.ofDays t.day
  let s := t.secondOfDay
  yearText d.year ++ '-' :: padded 2 d.month ++ '-' :: padded 2 d.day ++ 'T' :: padded 2 (s / 3600) ++
    ':' :: padded 2 (s / 60 % 60) ++ ':' :: padded 2 (s % 60 + if t.isLeap then 1 else 0)

def secondsText (t : Instant) : String := String.ofList (t.wholeText ++ ['Z'])

/-- The text that the engine of the store writes for an instant: a blank stands for the letter. -/
def stampText (t : Instant) : String :=
  String.ofList (t.wholeText.map fun c => if c = 'T' then ' ' else c)

/-- Text with as few of three, six or nine decimals as are exact. -/
def text (t : Instant) : String :=
  String.ofList (t.wholeText ++ fractionText (t.nanos % billion) ++ ['Z'])

def takeNumber (n : Nat) (cs : List Char) : Option (Nat × List Char) :=
  if (cs.take n).length = n then (Text.readNat 10 (cs.take n)).map fun v => (v, cs.drop n) else none

def takeChar (c : Char) : List Char → Option (List Char)
  | [] => none
  | d :: cs => if c = d then some cs else none

/-- Digits after the point; those after the ninth do not count. -/
def takeFraction : List Char → Option (Nat × List Char)
  | '.' :: cs =>
    let ds := cs.takeWhile fun c => (Text.digitValue 10 c).isSome
    let nine := (ds ++ List.replicate 9 '0').take 9
    if ds.isEmpty then none else (Text.readNat 10 nine).map fun v => (v, cs.drop ds.length)
  | cs => some (0, cs)

/-- An offset in seconds: `Z`, or a sign, two digits, a colon and two digits below 24:00. -/
def readOffset : List Char → Option Int
  | ['Z'] | ['z'] => some 0
  | sign :: cs => do
    let (h, cs) ← takeNumber 2 cs
    let (m, cs) ← takeNumber 2 (← takeChar ':' cs)
    if !cs.isEmpty || h > 23 || m > 59 then none
    let value : Int := h * 3600 + m * 60
    if sign = '+' then some value
    else if sign = '-' ∨ sign.toNat = 0x2212 then some (-value)
    else none
  | [] => none

/-- A date, a time and an offset; second 60 is a leap second. -/
def readChars (cs : List Char) : Option Instant := do
  let (year, cs) ← takeNumber 4 cs
  let (month, cs) ← takeNumber 2 (← takeChar '-' cs)
  let (day, cs) ← takeNumber 2 (← takeChar '-' cs)
  let cs ← match cs with
    | 'T' :: cs | 't' :: cs | ' ' :: cs => some cs
    | _ => none
  let (hour, cs) ← takeNumber 2 cs
  let (minute, cs) ← takeNumber 2 (← takeChar ':' cs)
  let (second, cs) ← takeNumber 2 (← takeChar ':' cs)
  let (fraction, cs) ← takeFraction cs
  let offset ← readOffset cs
  let date : Date := ⟨year, month, day⟩
  if !date.isValid || hour > 23 || minute > 59 || second > 60 then none
  let seconds := (date.toDays - epochDay) * 86400 + hour * 3600 + minute * 60 + min second 59 - offset
  return ⟨seconds, fraction + if second = 60 then billion else 0⟩

def read? (s : String) : Option Instant := readChars s.toList

end Instant

/-! Spans of time in whole milliseconds, and their text. -/

structure Duration where
  millis : Nat
deriving Repr, DecidableEq

namespace Duration

def ofSeconds (n : Nat) : Duration := ⟨n * 1000⟩

/-- Seconds with as many decimals as are needed, or milliseconds below one second. -/
def text (d : Duration) : String :=
  if d.millis = 0 then "0ns"
  else if d.millis < 1000 then s!"{d.millis}ms"
  else
    let rest := d.millis % 1000
    let decimals := [rest / 100, rest / 10 % 10, rest % 10].reverse.dropWhile (· = 0)
    let digits := String.ofList (decimals.reverse.map Nat.digitChar)
    if rest = 0 then s!"{d.millis / 1000}s" else s!"{d.millis / 1000}.{digits}s"

end Duration

end Muster
