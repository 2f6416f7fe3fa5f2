import Muster.Halt

/-! What holds before and after work that acts on a state, whatever comes of it. -/

namespace Muster

variable {ε δ σ ω α β : Type}

/-- The property holds after the work when it holds before. -/
def Keeps (P : σ → Prop) (w : ExceptT ε (StateM σ) α) : Prop := ∀ s, P s → P (w s).2

theorem bind_of_ok {w : ExceptT ε (StateM σ) α} {f : α → ExceptT ε (StateM σ) β} {s t : σ} {a : α}
    (h : w s = (.ok a, t)) : (w >>= f) s = f a t := by
  have hbind : (w >>= f) s = (ExceptT.bindCont f (w s).1) (w s).2 := rfl
  rw [hbind, h]
  rfl

theorem bind_of_error {w : ExceptT ε (StateM σ) α} {f : α → ExceptT ε (StateM σ) β} {s t : σ} {e : ε}
    (h : w s = (.error e, t)) : (w >>= f) s = (.error e, t) := by
  have hbind : (w >>= f) s = (ExceptT.bindCont f (w s).1) (w s).2 := rfl
  rw [hbind, h]
  rfl

@[simp] theorem get_bind_apply (f : σ → ExceptT ε (StateM σ) β) (s : σ) : (get >>= f) s = f s s := rfl

theorem ofExcept_apply (x : Except ε α) (s : σ) :
    (MonadExcept.ofExcept x : ExceptT ε (StateM σ) α) s = (x, s) := by
  cases x <;> rfl

theorem bind_eq_ok {w : ExceptT ε (StateM σ) α} {f : α → ExceptT ε (StateM σ) β} {s u : σ} {b : β} :
    (w >>= f) s = (.ok b, u) ↔ ∃ a t, w s = (.ok a, t) ∧ f a t = (.ok b, u) := by
  constructor
  · intro h
    rcases hw : w s with ⟨e | a, t⟩
    · rw [bind_of_error hw] at h
      cases h
    · rw [bind_of_ok hw] at h
      exact ⟨a, t, rfl, h⟩
  · rintro ⟨a, t, hw, hf⟩
    rw [bind_of_ok hw, hf]

theorem eq_ok_of_toOption {x : Except ε α} {a : α} (h : x.toOption = some a) : x = .ok a := by
  cases x with
  | error e => cases h
  | ok b => exact congrArg Except.ok (Option.some.inj h)

theorem exceptBind_eq_ok {x : Except ε α} {f : α → Except ε β} {b : β} :
    (x >>= f) = .ok b ↔ ∃ a, x = .ok a ∧ f a = .ok b := by
  constructor
  · intro h
    cases x with
    | error e => cases h
    | ok a => exact ⟨a, rfl, h⟩
  · rintro ⟨a, rfl, hf⟩
    exact hf

theorem exceptBind_eq_error {x : Except ε α} {f : α → Except ε β} {e : ε} :
    (x >>= f) = .error e ↔ x = .error e ∨ ∃ a, x = .ok a ∧ f a = .error e := by
  cases x with
  | error e' =>
    have hbind : (Except.error e' >>= f) = .error e' := rfl
    simp [hbind]
  | ok a =>
    have hbind : (Except.ok a >>= f) = f a := rfl
    simp [hbind]

theorem exceptGuard_eq_ok {p : Prop} [Decidable p] {e : ε} {f : PUnit → Except ε β} {b : β} :
    (if p then (throw e : Except ε PUnit) >>= f else f ⟨⟩) = .ok b ↔ ¬p ∧ f ⟨⟩ = .ok b := by
  by_cases hp : p
  · rw [if_pos hp]
    refine ⟨fun h => ?_, fun h => absurd hp h.1⟩
    cases h
  · rw [if_neg hp]
    exact ⟨fun h => ⟨hp, h⟩, fun h => h.2⟩

namespace Keeps

variable {P : σ → Prop}

theorem of_run {w : ExceptT ε (StateM σ) α} (hw : Keeps P w) {s t : σ} {r : Except ε α}
    (h : w s = (r, t)) (hs : P s) : P t := by
  have ht := hw s hs
  rwa [h] at ht

theorem pure (a : α) : Keeps P (Pure.pure a : ExceptT ε (StateM σ) α) := fun _ h => h

theorem throw (e : ε) : Keeps P (MonadExcept.throw e : ExceptT ε (StateM σ) α) := fun _ h => h

theorem get : Keeps P (MonadState.get : ExceptT ε (StateM σ) σ) := fun _ h => h

theorem modify {f : σ → σ} (h : ∀ s, P s → P (f s)) :
    Keeps P (modify f : ExceptT ε (StateM σ) PUnit) := h

theorem bind {w : ExceptT ε (StateM σ) α} {f : α → ExceptT ε (StateM σ) β} (hw : Keeps P w)
    (hf : ∀ a, Keeps P (f a)) : Keeps P (w >>= f) := by
  intro s hs
  have ht := hw s hs
  rcases hr : w s with ⟨e | a, t⟩
  · rw [hr] at ht
    rw [bind_of_error hr]
    exact ht
  · rw [hr] at ht
    rw [bind_of_ok hr]
    exact hf a t ht

theorem ite {c : Prop} [Decidable c] {v w : ExceptT ε (StateM σ) α} (hv : Keeps P v) (hw : Keeps P w) :
    Keeps P (if c then v else w) := by
  split
  · exact hv
  · exact hw

theorem and {Q : σ → Prop} {w : ExceptT ε (StateM σ) α} (hP : Keeps P w) (hQ : Keeps Q w) :
    Keeps (fun s => P s ∧ Q s) w := fun s hs => ⟨hP s hs.1, hQ s hs.2⟩

theorem forM {f : α → ExceptT ε (StateM σ) PUnit} (h : ∀ a, Keeps P (f a)) (as : List α) :
    Keeps P (as.forM f) := by
  induction as with
  | nil => exact .pure _
  | cons a as ih => exact .bind (h a) fun _ => ih

end Keeps

/-- From where one property holds, the work brings about another one of what comes of it. -/
def Brings (P : σ → Prop) (R : Except ε α → σ → Prop) (w : ExceptT ε (StateM σ) α) : Prop :=
  ∀ s, P s → R (w s).1 (w s).2

theorem Brings.bind {P : σ → Prop} {M : α → σ → Prop} {R : Except ε β → σ → Prop}
    {w : ExceptT ε (StateM σ) α} {f : α → ExceptT ε (StateM σ) β}
    (hw : Brings P (fun r t => (∀ a, r = .ok a → M a t) ∧ ∀ e, r = .error e → R (.error e) t) w)
    (hf : ∀ a, Brings (M a) R (f a)) : Brings P R (w >>= f) := by
  intro s hs
  obtain ⟨hok, herror⟩ := hw s hs
  rcases hr : w s with ⟨e | a, t⟩
  · rw [hr] at herror
    rw [bind_of_error hr]
    exact herror e rfl
  · rw [hr] at hok
    rw [bind_of_ok hr]
    exact hf a t (hok a rfl)

theorem Keeps.brings_bind {P : σ → Prop} {R : Except ε β → σ → Prop} {w : ExceptT ε (StateM σ) α}
    {f : α → ExceptT ε (StateM σ) β} (hw : Keeps P w) (herror : ∀ e t, P t → R (.error e) t)
    (hf : ∀ a, Brings P R (f a)) : Brings P R (w >>= f) :=
  .bind (fun s hs => ⟨fun _ _ => hw s hs, fun e _ => herror e _ (hw s hs)⟩) hf

/-! Work in the outer world -/

namespace Work

variable {P : ω → Prop}

theorem keeps_mapError {w : Work ω ε α} (h : Keeps P w) (f : ε → δ) : Keeps P (w.mapError f) := by
  intro s hs
  have ht := h s hs
  rw [mapError]
  rcases hr : w s with ⟨_ | _, t⟩ <;> simpa [hr] using ht

theorem keeps_focus {Q : σ → Prop} {get : σ → ω} {set : ω → σ → σ} {w : Work ω ε α}
    (h : Keeps P w) (hget : ∀ s, Q s → P (get s)) (hset : ∀ s t, Q s → P t → Q (set t s)) :
    Keeps Q (w.focus get set) :=
  fun s hs => hset s _ hs (h _ (hget s hs))

theorem keeps_within {w : Work ω ε α} (h : Keeps P w) (late : ε) : Keeps P (w.within late) := by
  intro s hs
  have ht := h s hs
  rw [within]
  rcases hr : w s with ⟨(_ | _) | _, t⟩ <;> simpa [hr] using ht

theorem keeps_tried {w : Work ω ε α} (h : Keeps P w) : Keeps P (w.tried : Work ω δ (Except ε α)) := by
  intro s hs
  have ht := h s hs
  rw [tried]
  rcases hr : w s with ⟨(_ | _) | _, t⟩ <;> simpa [hr] using ht

theorem keeps_outcome {w : Work ω ε α} (h : Keeps P w) : Keeps P w.outcome := h

end Work

end Muster
