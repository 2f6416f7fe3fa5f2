/-! Work in the outer world, which may fail or never end. -/

namespace Muster

inductive Halt (ε : Type) where
  | failed (cause : ε)
  | stalled
deriving Repr, DecidableEq

def Halt.map (f : ε → δ) : Halt ε → Halt δ
  | failed e => failed (f e)
  | stalled => stalled

abbrev Work (ω ε : Type) := ExceptT (Halt ε) (StateM ω)

namespace Work

variable {ω ε δ α : Type}

def fail (e : ε) : Work ω ε α := throw (.failed e)

def ofExcept : Except ε α → Work ω ε α
  | .ok a => pure a
  | .error e => fail e

def mapError (f : ε → δ) (w : Work ω ε α) : Work ω δ α := fun s =>
  match w s with
  | (.ok a, s) => (.ok a, s)
  | (.error h, s) => (.error (h.map f), s)

/-- Work of which only a part of the world is seen. -/
def focus {σ : Type} (get : σ → ω) (set : ω → σ → σ) (w : Work ω ε α) : Work σ ε α := fun s =>
  let (r, t) := w (get s)
  (r, set t s)

/-- Work that is given up with a failure when it does not end. -/
def within (late : ε) (w : Work ω ε α) : Work ω ε α := fun s =>
  match w s with
  | (.error .stalled, s) => (.error (.failed late), s)
  | r => r

def tried (w : Work ω ε α) : Work ω δ (Except ε α) := fun s =>
  match w s with
  | (.ok a, s) => (.ok (.ok a), s)
  | (.error (.failed e), s) => (.ok (.error e), s)
  | (.error .stalled, s) => (.error .stalled, s)

def outcome (w : Work ω ε α) : Work ω ε (Except (Halt ε) α) := fun s =>
  let (r, s) := w s
  (.ok r, s)

end Work

end Muster
