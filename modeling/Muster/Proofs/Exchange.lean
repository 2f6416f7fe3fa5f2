import Muster.Proofs.Keeps
import Muster.Sync.Snapshot

/-! The calls that a snapshot is fetched with: those before the first that fails are answered, and no
other calls are made. -/

namespace Muster

variable {ω α : Type}

namespace Esi

abbrev Exchange := (c : Call) × c.Answer

instance : (c : Call) → Inhabited c.Answer
  | .character _ => ⟨"", 0, none⟩
  | .portrait _ => ⟨"", "", "", ""⟩
  | .skills _ => ⟨[], 0⟩
  | .corporation _ => ⟨"", "", none⟩
  | .corporationIcons _ => ⟨"", "", ""⟩
  | .alliance _ => ⟨"", ""⟩
  | .allianceIcons _ => ⟨"", ""⟩
  | .names _ => ⟨[]⟩
  | .ids _ => ⟨⟨[]⟩⟩

/-- Calls that are made one after another and all answered, from one state of the world to another. -/
inductive Answered (ask : Api ω) (token : String) : ω → List Exchange → ω → Prop
  | none (w : ω) : Answered ask token w [] w
  | next {w v u : ω} {c : Call} {a : c.Answer} {es : List Exchange} :
    ask token c w = (.ok a, v) → Answered ask token v es u → Answered ask token w (⟨c, a⟩ :: es) u

/-- Calls of which the last one alone is not answered. -/
def Broken (ask : Api ω) (token : String) (w : ω) (es : List Exchange) (c : Call) (h : Halt EsiError)
    (u : ω) : Prop :=
  ∃ v, Answered ask token w es v ∧ ask token c v = (.error h, u)

/-- Work that makes the calls which lead to its result, or some of them from the first on up to one
that fails. -/
def Follows (ask : Api ω) (token : String) (leads : List Exchange → α → Prop)
    (work : Work ω EsiError α) : Prop :=
  ∀ w, match work w with
    | (.ok a, u) => ∃ es, leads es a ∧ Answered ask token w es u
    | (.error h, u) => ∃ es c x rest a, leads (es ++ ⟨c, x⟩ :: rest) a ∧ Broken ask token w es c h u

namespace Follows

variable {ask : Api ω} {token : String} {leads : List Exchange → α → Prop}

theorem pure {a : α} (h : leads [] a) : Follows ask token leads (Pure.pure a) :=
  fun w => ⟨[], h, .none w⟩

theorem exists_leads {work : Work ω EsiError α} (h : Follows ask token leads work) (w : ω) :
    ∃ es a, leads es a := by
  have hw := h w
  rcases hr : work w with ⟨_ | a, u⟩
  · rw [hr] at hw
    obtain ⟨es, c, x, rest, a, hl, -⟩ := hw
    exact ⟨_, a, hl⟩
  · rw [hr] at hw
    obtain ⟨es, hl, -⟩ := hw
    exact ⟨es, a, hl⟩

theorem call {c : Call} {f : c.Answer → Work ω EsiError α}
    (h : ∀ x, Follows ask token (fun es a => leads (⟨c, x⟩ :: es) a) (f x)) :
    Follows ask token leads (ask token c >>= f) := by
  intro w
  rcases hr : ask token c w with ⟨e | x, v⟩
  · -- The calls that would have come after the failure are those of any answer.
    obtain ⟨es, a, hl⟩ := (h default).exists_leads v
    rw [bind_of_error hr]
    exact ⟨[], c, default, es, a, hl, w, .none w, hr⟩
  · have hf := h x v
    rw [bind_of_ok hr]
    rcases hw : f x v with ⟨e | a, u⟩
    · rw [hw] at hf
      obtain ⟨es, c', x', rest, a, hl, v', hes, hc⟩ := hf
      exact ⟨⟨c, x⟩ :: es, c', x', rest, a, hl, v', .next hr hes, hc⟩
    · rw [hw] at hf
      obtain ⟨es, hl, hes⟩ := hf
      exact ⟨⟨c, x⟩ :: es, hl, .next hr hes⟩

end Follows

end Esi

namespace Snapshot

open Esi

/-- The alliance is that of the corporation, of which the id zero is none. -/
def Coherent (s : Snapshot) : Prop := s.alliance.map (·.1) = s.corporation.allianceId.filter (· != 0)

def exchanges (s : Snapshot) (id : Int) : List Exchange :=
  [⟨.character id, s.person⟩, ⟨.portrait id, s.portrait⟩,
    ⟨.corporation s.person.corporationId, s.corporation⟩,
    ⟨.corporationIcons s.person.corporationId, s.corporationIcons⟩, ⟨.skills id, s.skills⟩] ++
  match s.alliance with
  | none => []
  | some (a, data, icons) => [⟨.alliance a, data⟩, ⟨.allianceIcons a, icons⟩]

theorem follows_fetch (ask : Api ω) (token : String) (id : Int) :
    Follows ask token (fun es s => s.Coherent ∧ es = s.exchanges id) (fetch ask token id) := by
  refine .call fun person => .call fun portrait => .call fun corporation => .call fun icons =>
    .call fun skills => ?_
  rw [fetchAlliance]
  cases ha : corporation.allianceId.filter (· != 0) with
  | none => exact .pure ⟨ha.symm, rfl⟩
  | some a =>
    simp only [bind_assoc]
    exact .call fun data => .call fun allianceIcons => .pure ⟨ha.symm, rfl⟩

end Snapshot

end Muster
