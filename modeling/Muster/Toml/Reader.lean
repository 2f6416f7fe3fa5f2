import Muster.Toml.Quoted
import Muster.Toml.Scalar

/-! Reading a TOML document. -/

namespace Muster.Toml

/-- Values nest, and keys have parts, fewer than this many deep. -/
def maxDepth : Nat := 80

def dropComment : List Char → Option (List Char)
  | '#' :: cs => some (cs.dropWhile isAllowed)
  | cs => some cs

def dropBetween : Nat → List Char → Option (List Char)
  | 0, _ => none
  | fuel + 1, cs => do
    let cs ← dropComment (cs.dropWhile isSpace)
    match takeNewline cs with
    | some rest => dropBetween fuel rest
    | none => some cs

def takePath (cs : List Char) : Option (List String × String × List Char) := do
  let (keys, cs) ← takeKey (maxDepth - 1) cs
  return (keys.dropLast, ← keys.getLast?, cs)

mutual

def takeValue : Nat → Nat → List Char → Option (Toml × List Char)
  | 0, _, _ => none
  | fuel + 1, depth, cs =>
    match cs with
    | '[' :: cs => if depth + 1 < maxDepth then takeItems fuel (depth + 1) [] cs else none
    | '{' :: cs => if depth + 1 < maxDepth then takeBraces fuel (depth + 1) cs else none
    | '"' :: _ | '\'' :: _ => (takeText cs).map fun (s, cs) => (.text s, cs)
    | cs => takeWord? cs

def takeItems : Nat → Nat → List Toml → List Char → Option (Toml × List Char)
  | 0, _, _, _ => none
  | fuel + 1, depth, seen, cs => do
    match ← dropBetween cs.length.succ cs with
    | ']' :: cs => some (.array seen.reverse, cs)
    | cs =>
      let (v, cs) ← takeValue fuel depth cs
      match ← dropBetween cs.length.succ cs with
      | ']' :: cs => some (.array (v :: seen).reverse, cs)
      | ',' :: cs => takeItems fuel depth (v :: seen) cs
      | _ => none

def takeBraces : Nat → Nat → List Char → Option (Toml × List Char)
  | 0, _, _ => none
  | fuel + 1, depth, cs =>
    match cs.dropWhile isSpace with
    | '}' :: cs => some (.table .braces [], cs)
    | cs => takePairs fuel depth [] cs

def takePairs : Nat → Nat → Entries → List Char → Option (Toml × List Char)
  | 0, _, _, _ => none
  | fuel + 1, depth, seen, cs => do
    let (path, key, cs) ← takePath cs
    let (v, cs) ← takeValue fuel depth ((← char? '=' cs).dropWhile isSpace)
    let seen ← assign path key v ⟨.braces, seen⟩
    match cs.dropWhile isSpace with
    | '}' :: cs => some (.table .braces seen, cs)
    | ',' :: cs => takePairs fuel depth seen cs
    | _ => none

end

structure Document where
  entries : Entries
  path : List String

namespace Document

def change (d : Document) (f : Place → Option Entries) : Option Document :=
  (Toml.change false f d.path ⟨.header, d.entries⟩).map fun es => { d with entries := es }

def enter (d : Document) (path : List String) (key : String) (openLast : Place → Option Entries) :
    Option Document :=
  (Toml.change false openLast path ⟨.header, d.entries⟩).map fun es => ⟨es, path ++ [key]⟩

def statement (d : Document) (cs : List Char) : Option (Document × List Char) :=
  match cs with
  | '[' :: '[' :: cs => do
    let (path, key, cs) ← takePath cs
    let cs ← char? ']' (← char? ']' cs)
    return (← d.enter path key (openItem key), cs)
  | '[' :: cs => do
    let (path, key, cs) ← takePath cs
    let cs ← char? ']' cs
    return (← d.enter path key (openTable key), cs)
  | [] | '#' :: _ | '\n' :: _ | '\r' :: _ => some (d, cs)
  | cs => do
    let (path, key, cs) ← takePath cs
    let cs := (← char? '=' cs).dropWhile isSpace
    let (v, cs) ← takeValue (2 * cs.length + 2) 0 cs
    return (← d.change (assign path key v), cs)

def readLines : Nat → Document → List Char → Option Document
  | 0, _, _ => none
  | fuel + 1, d, cs => do
    let (d, cs) ← d.statement (cs.dropWhile isSpace)
    let cs ← dropComment (cs.dropWhile isSpace)
    match cs with
    | [] => some d
    | cs => readLines fuel d (← takeNewline cs)

end Document

/-- The entries of a document; a byte order mark in front of it does not count. -/
def read? (s : String) : Option Entries :=
  let cs := match s.toList with
    | c :: cs => if c.toNat = 0xFEFF then cs else c :: cs
    | [] => []
  (Document.readLines cs.length.succ ⟨[], []⟩ cs).map (·.entries)

end Muster.Toml
