/-! Finite maps kept as lists in the order of their keys, so that equal content is equality. -/

namespace Muster

/-- The greatest key stands first, as the key of a new entry is mostly the greatest. -/
structure Table (κ β : Type) [Ord κ] where
  entries : List (κ × β)
  descending : entries.Pairwise fun a b => compare b.1 a.1 = .lt

namespace Table

variable {κ β γ : Type} [Ord κ]

instance [DecidableEq κ] [DecidableEq β] : DecidableEq (Table κ β) := fun s t =>
  decidable_of_iff (s.entries = t.entries)
    ⟨fun h => by cases s; cases t; cases h; rfl, fun h => h ▸ rfl⟩

def toList (t : Table κ β) : List (κ × β) := t.entries.reverse

def empty : Table κ β := ⟨[], .nil⟩

instance : Inhabited (Table κ β) := ⟨empty⟩

def keys (t : Table κ β) : List κ := t.toList.map (·.1)

def size (t : Table κ β) : Nat := t.entries.length

def getFrom (k : κ) : List (κ × β) → Option β
  | [] => none
  | (k', v) :: rest => if compare k k' = .eq then some v else getFrom k rest

def get? (t : Table κ β) (k : κ) : Option β := getFrom k t.entries

def contains (t : Table κ β) (k : κ) : Bool := (t.get? k).isSome

def filter (p : κ → β → Bool) (t : Table κ β) : Table κ β :=
  ⟨t.entries.filter fun e => p e.1 e.2, t.descending.filter _⟩

def erase (t : Table κ β) (k : κ) : Table κ β := t.filter fun k' _ => compare k k' != .eq

def map (f : κ → β → γ) (t : Table κ β) : Table κ γ :=
  ⟨t.entries.map fun e => (e.1, f e.1 e.2), t.descending.map _ fun _ _ h => h⟩

def insertInto (k : κ) (v : β) : List (κ × β) → List (κ × β)
  | [] => [(k, v)]
  | e :: rest =>
    match compare k e.1 with
    | .gt => (k, v) :: e :: rest
    | .eq => (k, v) :: rest
    | .lt => e :: insertInto k v rest

theorem mem_insertInto {k : κ} {v : β} {l : List (κ × β)} {e : κ × β} (h : e ∈ insertInto k v l) :
    e = (k, v) ∨ e ∈ l := by
  induction l with
  | nil => simpa [insertInto] using h
  | cons a l ih =>
    rw [insertInto] at h
    split at h <;> simp only [List.mem_cons] at h ⊢ <;> grind

section

variable [Std.TransOrd κ] [Std.LawfulEqOrd κ]

theorem descending_insertInto (k : κ) (v : β) (l : List (κ × β))
    (h : l.Pairwise fun a b => compare b.1 a.1 = .lt) :
    (insertInto k v l).Pairwise fun a b => compare b.1 a.1 = .lt := by
  induction l with
  | nil => simp [insertInto]
  | cons a l ih =>
    obtain ⟨ha, hl⟩ := List.pairwise_cons.1 h
    rw [insertInto]
    split
    · rename_i hk
      have hk := Std.OrientedCmp.gt_iff_lt.1 hk
      refine List.pairwise_cons.2 ⟨fun e he => ?_, h⟩
      obtain rfl | he := List.mem_cons.1 he
      · exact hk
      · exact Std.TransCmp.lt_trans (ha e he) hk
    · rename_i hk
      have hk := Std.LawfulEqCmp.eq_of_compare hk
      exact List.pairwise_cons.2 ⟨fun e he => hk ▸ ha e he, hl⟩
    · rename_i hk
      refine List.pairwise_cons.2 ⟨fun e he => ?_, ih hl⟩
      obtain rfl | he := mem_insertInto he
      · exact hk
      · exact ha e he

def insert (t : Table κ β) (k : κ) (v : β) : Table κ β :=
  ⟨insertInto k v t.entries, descending_insertInto k v t.entries t.descending⟩

def adjust (t : Table κ β) (k : κ) (f : β → β) : Table κ β :=
  t.map fun k' v => if compare k k' = .eq then f v else v

/-- Of several values for one key the last one counts. -/
def ofList (l : List (κ × β)) : Table κ β := l.foldl (fun t e => t.insert e.1 e.2) empty

def collect (key : β → κ) (t : Table κ (List β)) (v : β) : Table κ (List β) :=
  t.insert (key v) ((t.get? (key v)).getD [] ++ [v])

def group (key : β → κ) (l : List β) : Table κ (List β) := l.foldl (collect key) empty

end

end Table

end Muster
