import Muster.Proofs.CallbackSafety

/-! A state that is registered again while an earlier login of it is alive leads to the new login, but the
end of the earlier one takes the registration away all the same. -/

namespace Muster

open CallbackQuery (Names)

namespace Callbacks

section

variable {es before after : List Event} {c : Callbacks} {m n : Nat} {state : String}

theorem Free.gone_once (h : Free es c) :
    es.Pairwise fun e f => ∀ n, e = .dropped n → f ≠ .dropped n ∧ f ≠ .cancelled n := by
  induction h with
  | start => exact .nil
  | begin | request | settle =>
    refine List.pairwise_append.2 ⟨by assumption, List.pairwise_singleton _ _, ?_⟩
    simp
  | @cancel es c n l h hn ih =>
    refine List.pairwise_append.2 ⟨ih, List.pairwise_singleton _ _, fun e he f hf m hm => ?_⟩
    have hd := (h.follows.login n l hn).2.1
    rw [List.mem_singleton.1 hf]
    exact ⟨nofun, fun heq => hd (by cases heq; exact hm ▸ he)⟩
  | @drop es c n h hn ih =>
    obtain ⟨l, hl⟩ := Option.isSome_iff_exists.1 hn
    refine List.pairwise_append.2 ⟨ih, List.pairwise_singleton _ _, fun e he f hf m hm => ?_⟩
    have hd := (h.follows.login n l hl).2.1
    rw [List.mem_singleton.1 hf]
    exact ⟨fun heq => hd (by cases heq; exact hm ▸ he), nofun⟩

theorem Begun.cases_split (h : Begun (before ++ .begun state :: after) m state) :
    Begun before m state ∨ m = (states before).length ∨ .begun state ∈ after := by
  rw [Begun, states_split] at h
  obtain hlt | heq | hgt := Nat.lt_trichotomy m (states before).length
  · rw [List.getElem?_append_left hlt] at h
    exact .inl h
  · exact .inr (.inl heq)
  · rw [List.getElem?_append_right (Nat.le_of_lt hgt)] at h
    obtain ⟨k, hk⟩ := Nat.exists_eq_add_of_lt hgt
    rw [hk, Nat.add_assoc, Nat.add_sub_cancel_left, List.getElem?_cons_succ] at h
    exact .inr (.inr (mem_states.1 (List.mem_of_getElem? h)))

/-- Where no earlier login of its state is left, a login stands until it gets its code, until it ends
itself, or until its state is registered again. -/
theorem Free.stands_alone (h : Free (before ++ .begun state :: after) c)
    (hgone : ∀ m, Begun before m state → .dropped m ∈ before) :
    Stands (before ++ .begun state :: after) (states before).length state ↔
      ∀ e ∈ after, e ≠ .begun state ∧ (∀ code, ¬e.Grants state code) ∧
        e ≠ .dropped (states before).length ∧ e ≠ .cancelled (states before).length := by
  rw [stands_split]
  have hbegun := begun_length before after state
  constructor
  · intro hafter e he
    have hturns := hafter e he
    exact ⟨fun hb => hturns (.inl hb), fun code hg => hturns (.inr (.inl ⟨code, hg⟩)),
      fun hd => hturns (.inr (.inr ⟨_, hbegun, .inl hd⟩)),
      fun hc => hturns (.inr (.inr ⟨_, hbegun, .inr hc⟩))⟩
  · intro hafter e he hturns
    obtain ⟨hnew, hgrants, hdropped, hcancelled⟩ := hafter e he
    obtain hb | ⟨code, hg⟩ | ⟨m, hm, hends⟩ := hturns
    · exact hnew hb
    · exact hgrants code hg
    · obtain hm | rfl | hb := hm.cases_split
      · have honce := (List.pairwise_append.1 h.gone_once).2.2 _ (hgone m hm) e
          (List.mem_cons_of_mem _ he) m rfl
        exact hends.elim honce.1 honce.2
      · exact hends.elim hdropped hcancelled
      · exact (hafter _ hb).1 rfl

theorem Stands.latest (h : Stands es n state) (hm : Begun es m state) : m ≤ n := by
  obtain ⟨before, after, rfl, rfl, hafter⟩ := h
  obtain hm | rfl | hb := hm.cases_split
  · exact Nat.le_of_lt hm.lt
  · exact Nat.le_refl _
  · exact absurd (.inl rfl) (hafter _ hb)

theorem Follows.retires_drop (h : Follows es c) (hn : Begun es n state) (hd : .dropped n ∉ es) :
    Retires n state c (c.drop n) := by
  obtain ⟨code?, hl, -⟩ := h.exists_login hn hd
  rw [Callbacks.drop, hl]
  exact ⟨isPending_remove c state, fun s hs => by simp [remove, hs], fun m hm => by simp [hm]⟩

end

/-- What is promised of the callbacks when states may be registered again. -/
structure Contested (es : List Event) (c : Callbacks) : Prop where
  leads_iff : ∀ state n, c.pending.get? state = some n ↔ Stands es n state
  accepted : ∀ pairs code state n, Names pairs code state → code ≠ "" → Stands es n state →
    c.receive pairs = (⟨⟨200⟩, "ok"⟩, c.hand n state code)
  refused : ∀ pairs code state, Names pairs code state → (∀ n, ¬Stands es n state) →
    (c.receive pairs).1.status = ⟨400⟩ ∧ (c.receive pairs).2 = c
  told_code : ∀ n state limit code, Begun es n state → .dropped n ∉ es →
    (c.verdict n limit = .ok code ↔ ∃ i, Receives es i n code)
  told_nothing : ∀ n state limit, Begun es n state → .dropped n ∉ es →
    (∀ i code, ¬Receives es i n code) →
    (c.verdict n limit = .error (.timeout limit) ↔ Stands es n state) ∧
      (c.verdict n limit = .error .cancelled ↔ ¬Stands es n state)
  dropping : ∀ n state, Begun es n state → .dropped n ∉ es → Retires n state c (c.drop n)
  waiting : ∀ n state limit, Begun es n state → .dropped n ∉ es →
    Retires n state c (c.wait n limit).2
  cancelling : ∀ n state, Begun es n state → Retires n state c (c.remove state)
  loses_iff : ∀ m n state s, Begun es m state → .dropped m ∉ es → Stands es n s → n ≠ m →
    ((c.drop m).pending.get? s ≠ some n ↔ s = state ∧ m < n)
  outlives_iff : ∀ before after state, es = before ++ .begun state :: after →
    (∀ m, Begun before m state → .dropped m ∈ before) →
    (Stands es (states before).length state ↔
      ∀ e ∈ after, e ≠ .begun state ∧ (∀ code, ¬e.Grants state code) ∧
        e ≠ .dropped (states before).length ∧ e ≠ .cancelled (states before).length)

/-- The latest login of a state stands for it until it gets its code, until it ends itself, or until an
earlier login of the state ends, which takes away a registration that it did not make. -/
theorem Free.latest_login_stands_until_one_ends {es : List Event} {c : Callbacks} (h : Free es c) :
    Contested es c where
  leads_iff := h.follows.leads
  accepted pairs code state n hnames hcode hn := by
    have hpending := (h.follows.leads state n).2 hn
    obtain ⟨code', state', m, hnames', -, hm, heq⟩ | ⟨-, -, hnone⟩ := receive_cases pairs c
    · obtain ⟨rfl, rfl⟩ := hnames.unique hnames'
      cases hm.symm.trans hpending
      exact heq
    · cases hpending.symm.trans (hnone code state hnames hcode)
  refused pairs code state hnames hnone := by
    obtain ⟨code', state', m, hnames', -, hm, -⟩ | ⟨hstatus, hsame, -⟩ := receive_cases pairs c
    · obtain ⟨rfl, rfl⟩ := hnames.unique hnames'
      exact absurd ((h.follows.leads state m).1 hm) (hnone m)
    · exact ⟨hstatus, hsame⟩
  told_code n state limit code hn hd := by
    obtain ⟨code?, hl, hcode⟩ := h.follows.exists_login hn hd
    rw [← hcode code, verdict, hl]
    cases code? with
    | some a => simp
    | none =>
      dsimp only
      split <;> simp
  told_nothing n state limit hn hd hnone := by
    obtain ⟨code?, hl, hcode⟩ := h.follows.exists_login hn hd
    obtain rfl : code? = none := Option.eq_none_iff_forall_ne_some.2 fun code ha => by
      obtain ⟨i, hr⟩ := (hcode code).1 ha
      exact hnone i code hr
    rw [← h.follows.leads, verdict, hl]
    by_cases hp : c.pending.get? state = some n <;> simp [hp]
  dropping n state := h.follows.retires_drop
  waiting n state limit := h.follows.retires_drop
  cancelling n state _ := retires_remove n state c
  loses_iff m n state s hm hd hn hne := by
    have hretires := h.follows.retires_drop hm hd
    have hpending := (h.follows.leads s n).2 hn
    by_cases hs : s = state
    · subst hs
      have hlt := hn.latest hm
      have hgone : (c.drop m).pending.get? s ≠ some n := fun heq =>
        Bool.eq_false_iff.1 hretires.gone (isPending_eq_true.2 ⟨n, heq⟩)
      exact iff_of_true hgone ⟨rfl, by omega⟩
    · rw [hretires.pending s hs]
      exact iff_of_false (not_not_intro hpending) fun h => hs h.1
  outlives_iff before after state heq hgone := by
    subst heq
    exact h.stands_alone hgone

def thrice : List Event := [.begun "s", .begun "s", .dropped 0, .begun "s"]

theorem free_thrice : ∃ c, Free thrice c :=
  have htwice : Free [.begun "s", .begun "s"] _ := .begin "s" (.begin "s" .start)
  ⟨_, .begin "s" (htwice.drop rfl)⟩

theorem third_login_stands_and_falls :
    ∃ c, Free thrice c ∧ c.pending.get? "s" = some 2 ∧
      c.receive [("code", "x"), ("state", "s")] = (⟨⟨200⟩, "ok"⟩, c.hand 2 "s" "x") ∧
      (c.drop 1).pending.get? "s" ≠ some 2 := by
  obtain ⟨c, hc⟩ := free_thrice
  have hpromised := hc.latest_login_stands_until_one_ends
  have hstands : Stands thrice 2 "s" := ⟨[.begun "s", .begun "s", .dropped 0], [], rfl, rfl, by simp⟩
  have hnames : Names [("code", "x"), ("state", "s")] "x" "s" := by constructor <;> decide
  have hfalls := hpromised.loses_iff 1 2 "s" "s" rfl (by simp [thrice]) hstands (by decide)
  exact ⟨c, hc, (hpromised.leads_iff "s" 2).2 hstands,
    hpromised.accepted _ "x" "s" 2 hnames (by decide) hstands, hfalls.2 ⟨rfl, by decide⟩⟩

/-- The second of two logins of a state has no code and has not ended, and yet when the first one is given
up the state leads nowhere, the second login is told that it was cancelled, and its code is refused. -/
theorem first_login_takes_registration_of_second :
    ∃ c, Free [.begun "s", .begun "s"] c ∧ c.pending.get? "s" = some 1 ∧
      Free [.begun "s", .begun "s", .dropped 0] (c.drop 0) ∧ (c.drop 0).pending.get? "s" = none ∧
      ¬Ended [.begun "s", .begun "s", .dropped 0] 1 ∧
      (∀ i code, ¬Granted [.begun "s", .begun "s", .dropped 0] i "s" code) ∧
      (c.drop 0).verdict 1 ⟨0⟩ = .error .cancelled ∧
      ((c.drop 0).receive [("code", "x"), ("state", "s")]).1.status = ⟨400⟩ := by
  have htwice : Free [.begun "s", .begun "s"] _ := .begin "s" (.begin "s" .start)
  refine ⟨_, htwice, rfl, htwice.drop rfl, rfl, by simp [Ended], fun i code hg => ?_, rfl, rfl⟩
  obtain ⟨e, he, hg⟩ := hg
  have hmem := List.mem_of_getElem? he
  simp only [List.mem_cons, List.not_mem_nil, or_false] at hmem
  obtain rfl | rfl | rfl := hmem <;> exact hg

end Callbacks

end Muster
