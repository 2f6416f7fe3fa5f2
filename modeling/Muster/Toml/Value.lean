/-! TOML values, and the tables of a document while it is read. -/

namespace Muster

/-- How a table came to be: by a header or its own braces it cannot be extended from elsewhere; one
named only on the way to another table may still get a header; one made by dotted keys may get more
of them. -/
inductive Toml.Origin where
  | header
  | implied
  | dotted
  | braces
deriving Repr, DecidableEq

inductive Toml where
  | text (value : String)
  | integer (value : Int)
  | boolean (value : Bool)
  | real
  | moment
  | array (items : List Toml)
  | table (origin : Toml.Origin) (entries : List (String × Toml))
  | tables (items : List (List (String × Toml)))

namespace Toml

abbrev Entries := List (String × Toml)

def Entries.put (key : String) (v : Toml) : Entries → Entries
  | [] => [(key, v)]
  | e :: es => if e.1 == key then (key, v) :: es else e :: Entries.put key v es

structure Place where
  origin : Origin
  entries : Entries

/-- Changes the table at the end of a path, making the tables that are not there. Dotted keys do not
enter tables that have a header. -/
def change (dotted : Bool) (f : Place → Option Entries) : List String → Place → Option Entries
  | [], p => f p
  | key :: path, p =>
    match p.entries.lookup key with
    | none =>
      let origin := if dotted then .dotted else .implied
      (change dotted f path ⟨origin, []⟩).map fun es => Entries.put key (.table origin es) p.entries
    | some (.table origin es) =>
      if origin = .braces || (dotted && origin = .header) then none
      else (change dotted f path ⟨origin, es⟩).map fun es =>
        Entries.put key (.table origin es) p.entries
    | some (.tables items) =>
      (change dotted f path ⟨.header, items.getLast?.getD []⟩).map fun es =>
        Entries.put key (.tables (items.dropLast ++ [es])) p.entries
    | some _ => none

def add (key : String) (v : Toml) (p : Place) : Option Entries :=
  if (p.entries.lookup key).isSome then none else some (p.entries ++ [(key, v)])

/-- A value under a dotted key, given as a path and a last part. Past dots the table must be one that
dotted keys made. -/
def assign (path : List String) (key : String) (v : Toml) (p : Place) : Option Entries :=
  change true (fun q => if !path.isEmpty && q.origin ≠ .dotted then none else add key v q) path p

def openTable (key : String) (p : Place) : Option Entries :=
  match p.entries.lookup key with
  | none => some (p.entries ++ [(key, .table .header [])])
  | some (.table .implied es) => some (Entries.put key (.table .header es) p.entries)
  | some _ => none

def openItem (key : String) (p : Place) : Option Entries :=
  match p.entries.lookup key with
  | none => some (p.entries ++ [(key, .tables [[]])])
  | some (.tables items) => some (Entries.put key (.tables (items ++ [[]])) p.entries)
  | some _ => none

/-! Reading records of fields that may all be missing. -/

/-- The values of the fields: by name from a table, by position from an array. A date or a time has
none of them. -/
def fields? (names : List String) : Toml → Option (List (Option Toml))
  | .table _ entries => some (names.map fun n => entries.lookup n)
  | .array items => some (names.zipIdx.map fun (_, i) => items[i]?)
  | .tables items =>
    some (names.zipIdx.map fun (_, i) => items[i]?.map fun es => .table .header es)
  | .moment => some (names.map fun _ => none)
  | _ => none

def asText? : Toml → Option String
  | .text s => some s
  | _ => none

def asNat? : Toml → Option Nat
  | .integer i => if 0 ≤ i then some i.toNat else none
  | _ => none

def fieldOr (default : α) (f : Toml → Option α) : Option Toml → Option α
  | none => some default
  | some t => f t

end Toml

end Muster
