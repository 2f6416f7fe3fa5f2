import Mathlib.Data.List.Forall2
import Mathlib.Logic.Function.Conjugate
import Muster.Proofs.Keeps
import Muster.Sync.Strand

/-! Strands of which each changes what is seen in one way, at a time of its own, change it together as
they do one after another, when their changes commute and none spoils what another relies on. -/

namespace Muster

variable {σ ρ α β : Type}

namespace Strand

theorem run_bind (t : Strand σ α) (f : α → Strand σ β) (s : σ) :
    (t.bind f).run s = (f (t.run s).1).run (t.run s).2 := by
  induction t generalizing s with
  | done a => rfl
  | step act next ih => exact ih s (act s)

def runEach : List (Strand σ α) → σ → List α × σ
  | [], s => ([], s)
  | t :: ts, s => ((t.run s).1 :: (runEach ts (t.run s).2).1, (runEach ts (t.run s).2).2)

def runBack : List (Strand σ α) → σ → List α × σ
  | [], s => ([], s)
  | t :: ts, s => ((t.run (runBack ts s).2).1 :: (runBack ts s).1, (t.run (runBack ts s).2).2)

theorem Interleaved.cons_done {ts : List (Strand σ α)} {s u : σ} {as : List α}
    (h : Interleaved ts s as u) (a : α) : Interleaved (.done a :: ts) s (a :: as) u := by
  induction h with
  | done as s => exact .done (a :: as) s
  | step hstep _ ih => exact .step (.there hstep) ih

/-- The first strand may as well wait until all others are done. -/
theorem Interleaved.cons_last {ts : List (Strand σ α)} {s u : σ} {as : List α}
    (h : Interleaved ts s as u) (t : Strand σ α) :
    Interleaved (t :: ts) s ((t.run u).1 :: as) (t.run u).2 := by
  induction h with
  | step hstep _ ih => exact .step (.there hstep) ih
  | done as s =>
    induction t generalizing s with
    | done a => exact .done (a :: as) s
    | step act next ih => exact .step .here (ih s (act s))

/-- To run strands one after another is one of the orders that their steps can come in. -/
theorem interleaved_runEach (ts : List (Strand σ α)) (s : σ) :
    Interleaved ts s (runEach ts s).1 (runEach ts s).2 := by
  induction ts generalizing s with
  | nil => exact .done [] s
  | cons t ts ih =>
    rw [runEach]
    induction t generalizing s with
    | done a => exact (ih s).cons_done a
    | step act next ihnext => exact .step .here (ihnext s (act s))

theorem interleaved_runBack (ts : List (Strand σ α)) (s : σ) :
    Interleaved ts s (runBack ts s).1 (runBack ts s).2 := by
  induction ts with
  | nil => exact .done [] s
  | cons t ts ih => exact ih.cons_last t

section

variable (see : σ → ρ) (paid : ρ → Prop)

/-- However the state is changed between its steps, as long as what the strand relies on holds of what
is seen, it ends with a result for which `Q` holds, and changes what is seen once by what it owes. From
then on it relies on `paid` alone. -/
def Owes (Q : α → Prop) : Strand σ α → (ρ → Prop) → Option (ρ → ρ) → Prop
  | done a, _, owed => owed = none ∧ Q a
  | step act next, relies, owed => ∀ s, relies (see s) →
    (see (act s) = see s ∧ (next s).Owes Q relies owed) ∨
    ∃ change, owed = some change ∧ see (act s) = change (see s) ∧ (next s).Owes Q paid none

variable {see paid} {Q : α → Prop} {R : β → Prop} {t : Strand σ α} {f : α → Strand σ β}
  {relies : ρ → Prop}

theorem Owes.bind {owed : Option (ρ → ρ)} (ht : t.Owes see paid Q relies none)
    (hf : ∀ a, Q a → (f a).Owes see paid R relies owed) : (t.bind f).Owes see paid R relies owed := by
  induction t with
  | done a => exact hf a ht.2
  | step act next ih =>
    intro s hs
    obtain ⟨hsee, hnext⟩ | ⟨_, ⟨⟩, _⟩ := ht s hs
    exact .inl ⟨hsee, ih s hnext⟩

theorem Owes.bind_due {change : ρ → ρ} (ht : t.Owes see paid Q relies (some change))
    (hf : ∀ a, Q a → (f a).Owes see paid R paid none) :
    (t.bind f).Owes see paid R relies (some change) := by
  induction t with
  | done a => cases ht.1
  | step act next ih =>
    intro s hs
    obtain ⟨hsee, hnext⟩ | ⟨_, ⟨⟩, hsee, hnext⟩ := ht s hs
    · exact .inl ⟨hsee, ih s hnext⟩
    · exact .inr ⟨change, rfl, hsee, hnext.bind hf⟩

theorem Owes.bind_idle {owed : Option (ρ → ρ)} (ht : t.Owes see paid Q relies owed)
    (hf : ∀ a, Q a → (f a).Owes see paid R relies none)
    (hpaid : ∀ a, Q a → (f a).Owes see paid R paid none) :
    (t.bind f).Owes see paid R relies owed := by
  cases owed with
  | none => exact ht.bind hf
  | some change => exact ht.bind_due hpaid

end

end Strand

open Strand

/-- What is known of a strand beforehand: what it relies on, its result, and the change it owes. -/
structure Pledge (ρ α : Type) where
  relies : ρ → Prop
  result : α
  owed : Option (ρ → ρ)

namespace Pledge

variable {see : σ → ρ} {paid : ρ → Prop}

def settled (paid : ρ → Prop) (p : Pledge ρ α) : Pledge ρ α := ⟨paid, p.result, none⟩

def payAll (ps : List (Pledge ρ α)) (r : ρ) : ρ :=
  (ps.filterMap (·.owed)).foldl (fun r change => change r) r

def Spares (p q : Pledge ρ α) : Prop := ∀ change ∈ p.owed, ∀ r, q.relies r → q.relies (change r)

structure Apart (p q : Pledge ρ α) : Prop where
  spares : p.Spares q
  spared : q.Spares p
  commute : ∀ f ∈ p.owed, ∀ g ∈ q.owed, Function.Commute f g

/-- Pledges that can be kept in any order, where `r` is seen. -/
structure Compatible (paid : ρ → Prop) (ps : List (Pledge ρ α)) (r : ρ) : Prop where
  apart : ps.Pairwise Apart
  relies : ∀ p ∈ ps, p.relies r
  holds : paid r
  keeps : ∀ p ∈ ps, ∀ change ∈ p.owed, ∀ r, paid r → paid (change r)

def Meets (see : σ → ρ) (paid : ρ → Prop) (t : Strand σ α) (p : Pledge ρ α) : Prop :=
  t.Owes see paid (· = p.result) p.relies p.owed

theorem payAll_cons (p : Pledge ρ α) (ps : List (Pledge ρ α)) (r : ρ) :
    payAll (p :: ps) r = payAll ps ((p.owed.getD id) r) := by
  cases h : p.owed <;> simp [payAll, h]

theorem payAll_append (ps qs : List (Pledge ρ α)) (r : ρ) :
    payAll (ps ++ qs) r = payAll qs (payAll ps r) := by
  rw [payAll, List.filterMap_append, List.foldl_append]
  rfl

theorem Apart.symm {p q : Pledge ρ α} (h : p.Apart q) : q.Apart p :=
  ⟨h.spared, h.spares, fun f hf g hg => (h.commute g hg f hf).symm⟩

theorem payAll_comm {ps : List (Pledge ρ α)} {change : ρ → ρ}
    (h : ∀ p ∈ ps, ∀ f ∈ p.owed, Function.Commute f change) (r : ρ) :
    payAll ps (change r) = change (payAll ps r) := by
  induction ps generalizing r with
  | nil => rfl
  | cons p ps ih =>
    have hp : (p.owed.getD id) (change r) = change ((p.owed.getD id) r) := by
      cases hf : p.owed with
      | none => rfl
      | some f => exact h p (by simp) f hf r
    rw [payAll_cons, payAll_cons, hp, ih fun q hq => h q (by simp [hq])]

theorem payAll_first {before after : List (Pledge ρ α)} {p : Pledge ρ α} {change : ρ → ρ}
    (hp : p.owed = some change) (h : (before ++ p :: after).Pairwise Apart) (paid : ρ → Prop) (r : ρ) :
    payAll (before ++ p :: after) r = payAll (before ++ p.settled paid :: after) (change r) := by
  have hcomm : payAll before (change r) = change (payAll before r) := by
    refine payAll_comm (fun q hq f hf => ?_) r
    exact ((List.pairwise_append.1 h).2.2 q hq p (by simp)).commute f hf change hp
  rw [payAll_append, payAll_append, payAll_cons, payAll_cons, hcomm, hp]
  rfl

theorem payAll_last {ps : List (Pledge ρ α)} {p : Pledge ρ α} {change : ρ → ρ}
    (h : ps.Pairwise Apart) (hp : p ∈ ps) (howed : p.owed = some change) (r : ρ) :
    ∃ q, payAll ps r = change q := by
  obtain ⟨before, after, rfl⟩ := List.append_of_mem hp
  obtain ⟨-, hrest, -⟩ := List.pairwise_append.1 h
  refine ⟨payAll after (payAll before r), ?_⟩
  rw [payAll_append, payAll_cons, howed]
  exact payAll_comm (fun q hq f hf =>
    (((List.pairwise_cons.1 hrest).1 q hq).commute change howed f hf).symm) _

theorem payAll_keeps {ps : List (Pledge ρ α)} {P : ρ → Prop}
    (h : ∀ p ∈ ps, ∀ f ∈ p.owed, ∀ r, P r → P (f r)) {r : ρ} (hr : P r) : P (payAll ps r) := by
  induction ps generalizing r with
  | nil => exact hr
  | cons p ps ih =>
    rw [payAll_cons]
    refine ih (fun q hq => h q (by simp [hq])) ?_
    cases howed : p.owed with
    | none => exact hr
    | some f => exact h p (by simp) f howed r hr

theorem Compatible.perm {ps qs : List (Pledge ρ α)} {r : ρ} (h : Compatible paid ps r)
    (hperm : ps.Perm qs) : Compatible paid qs r where
  apart := hperm.pairwise h.apart Apart.symm
  relies p hp := h.relies p (hperm.mem_iff.2 hp)
  holds := h.holds
  keeps p hp := h.keeps p (hperm.mem_iff.2 hp)

/-- The others do not mind a change, and the strand that made it relies on little from then on. -/
theorem Compatible.settle {before after : List (Pledge ρ α)} {p : Pledge ρ α} {change : ρ → ρ} {r : ρ}
    (h : Compatible paid (before ++ p :: after) r) (hp : p.owed = some change) :
    Compatible paid (before ++ p.settled paid :: after) (change r) := by
  have hhead := h.perm List.perm_middle
  obtain ⟨hapart, hrest⟩ := List.pairwise_cons.1 hhead.apart
  have hpaid : paid (change r) := hhead.keeps p (by simp) change hp r h.holds
  have hsettled : Compatible paid (p.settled paid :: (before ++ after)) (change r) := by
    refine ⟨List.pairwise_cons.2 ⟨fun q hq => ⟨?_, ?_, ?_⟩, hrest⟩, ?_, hpaid, ?_⟩
    · rintro f ⟨⟩
    · exact hhead.keeps q (by simp [hq])
    · rintro f ⟨⟩
    · intro q hq
      obtain rfl | hq := List.mem_cons.1 hq
      · exact hpaid
      · exact (hapart q hq).spares change hp r (hhead.relies q (by simp [hq]))
    · intro q hq f hf
      obtain rfl | hq := List.mem_cons.1 hq
      · cases hf
      · exact hhead.keeps q (by simp [hq]) f hf
  exact hsettled.perm List.perm_middle.symm

theorem eq_of_done {as : List α} {ps : List (Pledge ρ α)}
    (h : List.Forall₂ (Meets see paid) (as.map .done) ps) (r : ρ) :
    as = ps.map (·.result) ∧ payAll ps r = r := by
  induction ps generalizing as with
  | nil =>
    cases as with
    | nil => exact ⟨rfl, rfl⟩
    | cons a as => cases h
  | cons p ps ih =>
    cases as with
    | nil => cases h
    | cons a as =>
      obtain ⟨⟨howed, rfl⟩, htail⟩ := List.forall₂_cons.1 h
      obtain ⟨rfl, hpay⟩ := ih htail
      rw [payAll_cons, howed]
      exact ⟨rfl, hpay⟩

theorem of_advance {ts us : List (Strand σ α)} {s u : σ} (h : Advance ts s us u)
    {ps : List (Pledge ρ α)} (hts : List.Forall₂ (Meets see paid) ts ps)
    (hrelies : ∀ p ∈ ps, p.relies (see s)) :
    (see u = see s ∧ List.Forall₂ (Meets see paid) us ps) ∨
    ∃ before p after change, ps = before ++ p :: after ∧ p.owed = some change ∧
      see u = change (see s) ∧ List.Forall₂ (Meets see paid) us (before ++ p.settled paid :: after) := by
  induction h generalizing ps with
  | here =>
    obtain ⟨p, ps, hp, htail, rfl⟩ := List.forall₂_cons_left_iff.1 hts
    obtain ⟨hsee, hnext⟩ | ⟨change, howed, hsee, hnext⟩ := hp _ (hrelies p (by simp))
    · exact .inl ⟨hsee, .cons hnext htail⟩
    · exact .inr ⟨[], p, ps, change, rfl, howed, hsee, .cons hnext htail⟩
  | there _ ih =>
    obtain ⟨p, ps, hp, htail, rfl⟩ := List.forall₂_cons_left_iff.1 hts
    obtain ⟨hsee, hus⟩ | ⟨before, q, after, change, rfl, howed, hsee, hus⟩ :=
      ih htail fun q hq => hrelies q (by simp [hq])
    · exact .inl ⟨hsee, .cons hp hus⟩
    · exact .inr ⟨p :: before, q, after, change, rfl, howed, hsee, .cons hp hus⟩

/-- In whatever order the steps come, each strand ends with its own result, and what is seen is changed
as by all of them in turn. -/
theorem of_interleaved {ts : List (Strand σ α)} {s u : σ} {as : List α} (h : Interleaved ts s as u)
    {ps : List (Pledge ρ α)} (hts : List.Forall₂ (Meets see paid) ts ps)
    (hps : Compatible paid ps (see s)) : as = ps.map (·.result) ∧ see u = payAll ps (see s) := by
  -- On the steps: after each of them the pledges can still be kept, at most one of them settled by it.
  induction h generalizing ps with
  | done as s =>
    obtain ⟨has, hpay⟩ := eq_of_done hts (see s)
    exact ⟨has, hpay.symm⟩
  | step hstep _ ih =>
    obtain ⟨hsee, hus⟩ | ⟨before, p, after, change, rfl, howed, hsee, hus⟩ :=
      of_advance hstep hts hps.relies
    · rw [← hsee] at hps ⊢
      exact ih hus hps
    · obtain ⟨has, hpay⟩ := ih hus (hsee ▸ hps.settle howed)
      rw [hpay, hsee, payAll_first howed hps.apart paid]
      exact ⟨by simpa [settled] using has, rfl⟩

end Pledge

end Muster
