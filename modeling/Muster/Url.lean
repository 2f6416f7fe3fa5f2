import Muster.Url.Host

/-! Web addresses in their normal form. -/

namespace Muster

/-- The parts of an address, escaped. A path without a host may be any text. -/
structure Url where
  scheme : List Char
  user : List Char
  host : Option (List Char)
  port : Option Nat
  path : List Char
  query : Option (List Char)
  fragment : Option (List Char)
deriving Repr, DecidableEq

namespace Url

def commonPort (scheme : List Char) : Option Nat :=
  match String.ofList scheme with
  | "http" | "ws" => some 80
  | "https" | "wss" => some 443
  | "ftp" => some 21
  | _ => none

def isSchemeChar (c : Char) : Bool :=
  c.isAlphanum || c == '+' || c == '-' || c == '.'

def takeScheme (cs : List Char) : Option (List Char × List Char) :=
  match Text.cut? (· = ':') cs with
  | some (c :: s, rest) =>
    if c.isAlpha && s.all isSchemeChar then some ((c :: s).map Char.toLower, rest) else none
  | _ => none

/-- The address without the blanks and control characters around it and without line ends and tabs. -/
def clean (cs : List Char) : List Char :=
  let blank (c : Char) := c.toNat ≤ 0x20
  let cs := ((cs.dropWhile blank).reverse.dropWhile blank).reverse
  cs.filter fun c => c != '\t' && c != '\n' && c != '\r'

def endsHost (special : Bool) (c : Char) : Bool :=
  c == '/' || c == '?' || c == '#' || (special && c == '\\')

def isDot (segment : List Char) : Bool :=
  ["." , "%2e"].contains (String.ofList segment).toLower

def isDoubleDot (segment : List Char) : Bool :=
  ["..", ".%2e", "%2e.", "%2e%2e"].contains (String.ofList segment).toLower

/-- Goes along the segments of a path, of which those so far are kept in reverse. -/
def walk : List (List Char) → List (List Char) → List (List Char)
  | seen, [] => seen.reverse
  | seen, s :: rest =>
    let seen := if isDoubleDot s then seen.tail else if isDot s then seen else escape inPath s :: seen
    let seen := if rest.isEmpty && (isDot s || isDoubleDot s) then [] :: seen else seen
    walk seen rest

def readPath (special : Bool) (cs : List Char) : List Char :=
  let cs := if special then cs.map fun c => if c = '\\' then '/' else c else cs
  let cs := if cs.head? = some '/' then cs.tail else cs
  (walk [] (Text.pieces '/' cs)).flatMap ('/' :: ·)

def splitTail (cs : List Char) : List Char × Option (List Char) × Option (List Char) :=
  let (cs, fragment) := match Text.cut? (· = '#') cs with
    | some (a, b) => (a, some b)
    | none => (cs, none)
  match Text.cut? (· = '?') cs with
  | some (a, b) => (a, some b, fragment)
  | none => (cs, none, fragment)

/-- A name and a password, with an at sign behind them unless both are empty. -/
def readUser (cs : List Char) : List Char :=
  let (name, password) := (Text.cut? (· = ':') cs).getD (cs, [])
  let name := escape inUser name
  let password := escape inUser password
  if name.isEmpty && password.isEmpty then []
  else name ++ (if password.isEmpty then [] else ':' :: password) ++ ['@']

/-- The text up to the colon before a port; colons in brackets do not count. -/
def spanHost (inside : Bool) : List Char → List Char × List Char
  | [] => ([], [])
  | c :: cs =>
    if c = ':' && !inside then ([], c :: cs)
    else
      let (a, b) := spanHost (if c = '[' then true else if c = ']' then false else inside) cs
      (c :: a, b)

/-- A port below 65536; the usual one of the scheme is left out. -/
def readPort (usual : Option Nat) : List Char → Except UrlError (Option Nat)
  | [] | [_] => .ok none
  | _ :: cs =>
    match Text.readNat 10 cs with
    | some n => if n < 65536 then .ok (if usual = some n then none else some n) else .error .port
    | none => .error .port

def splitUser (cs : List Char) : Option (List Char) × List Char :=
  match Text.cut? (· = '@') cs.reverse with
  | some (host, user) => (some user.reverse, host.reverse)
  | none => (none, cs)

def readAuthority (scheme cs : List Char) : Except UrlError Url := do
  let usual := commonPort scheme
  let special := usual.isSome
  let authority := cs.takeWhile fun c => !endsHost special c
  let (path, query, fragment) := splitTail (cs.dropWhile fun c => !endsHost special c)
  let (user, place) := splitUser authority
  if user.isSome && place.isEmpty then throw .emptyHost
  let (name, port) := spanHost false place
  if name.isEmpty && (special || !port.isEmpty) then throw .emptyHost
  let host ← readHost special name
  let port ← readPort usual port
  return {
    scheme, host := some host, port, user := readUser (user.getD [])
    path := if path.isEmpty && !special then [] else readPath special path
    query := query.map (escape (inQuery special))
    fragment := fragment.map (escape inFragment) }

/-- What follows the scheme of files: a host may be missing, and this machine is not named. -/
def readFile (scheme cs : List Char) : Except UrlError Url := do
  let slash (c : Char) := c == '/' || c == '\\'
  let named := (cs.take 2).length == 2 && (cs.take 2).all slash
  let cs := if named then cs.drop 2 else cs
  let name := if named then cs.takeWhile fun c => !endsHost true c else []
  let (path, query, fragment) := splitTail (cs.drop name.length)
  let host ← if name.isEmpty then pure [] else readHost true name
  return {
    scheme, host := some (if host = "localhost".toList then [] else host), port := none, user := []
    path := readPath true path
    query := query.map (escape (inQuery true))
    fragment := fragment.map (escape inFragment) }

def readOpaque (scheme cs : List Char) : Url :=
  let (path, query, fragment) := splitTail cs
  { scheme, host := none, port := none, user := []
    path := if path.head? = some '/' then readPath false path else escape [] path
    query := query.map (escape (inQuery false))
    fragment := fragment.map (escape inFragment) }

def read (s : String) : Except UrlError Url :=
  match takeScheme (clean s.toList) with
  | none => .error .relative
  | some (scheme, rest) =>
    if scheme = "file".toList then readFile scheme rest
    else if (commonPort scheme).isSome then
      readAuthority scheme (rest.dropWhile fun c => c == '/' || c == '\\')
    else
      match rest with
      | '/' :: '/' :: cs => readAuthority scheme cs
      | cs => .ok (readOpaque scheme cs)

def addPairs (u : Url) (pairs : List (String × String)) : Url :=
  let more := Text.Form.encode pairs
  { u with query := some (match u.query with
    | none | some [] => more
    | some q => q ++ '&' :: more) }

def text (u : Url) : String :=
  let host := match u.host with
    | some h => '/' :: '/' :: u.user ++ h ++ (u.port.elim [] fun n => ':' :: Nat.toDigits 10 n)
    | none => if u.path.take 2 = ['/', '/'] then ['/', '.'] else []
  String.ofList (u.scheme ++ ':' :: host ++ u.path ++ (u.query.elim [] ('?' :: ·)) ++
    u.fragment.elim [] ('#' :: ·))

end Url

end Muster
