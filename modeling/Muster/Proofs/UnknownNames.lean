import Muster.Proofs.ListReading

/-! The names that are asked for beforehand are those that reading a list would tell to be unknown, each in
its first spelling. -/

namespace Muster.SkillList

/-! Names up to the case of letters -/

theorem sameName_iff {m n : String} : sameName m n = true ↔ m.toLower = n.toLower := beq_iff_eq

theorem sameName_self (n : String) : sameName n n = true := sameName_iff.2 rfl

/-- Some names of a list, each as it is spelled first and in the order of their first places. -/
structure FirstSpellings (us ns : List String) : Prop where
  first : ∀ n, n ∈ ns ↔ us.find? (sameName · n) = some n
  order : ns.Pairwise fun m n => us.idxOf m < us.idxOf n

variable {us ns : List String} {m n u : String}

theorem find?_sameName_congr (h : sameName m n = true) (us : List String) :
    us.find? (sameName · m) = us.find? (sameName · n) := by
  have hsame : (sameName · m) = (sameName · n) := funext fun u => by
    rw [sameName, sameName, sameName_iff.1 h]
  rw [hsame]

namespace FirstSpellings

variable (h : FirstSpellings us ns)
include h

theorem subset (hn : n ∈ ns) : n ∈ us := List.mem_of_find?_eq_some ((h.first n).1 hn)

theorem covers (hu : u ∈ us) : ∃ n ∈ ns, sameName n u = true := by
  have hfound : (us.find? (sameName · u)).isSome = true := List.find?_isSome.2 ⟨u, hu, sameName_self u⟩
  obtain ⟨n, hn⟩ := Option.isSome_iff_exists.1 hfound
  have hsame := List.find?_some hn
  refine ⟨n, (h.first n).2 ?_, hsame⟩
  rw [find?_sameName_congr hsame, hn]

theorem apart : ns.Pairwise fun m n => sameName m n = false := by
  refine h.order.imp_of_mem fun {m n} hm hn hlt => ?_
  by_contra hsame
  have hfind := find?_sameName_congr (eq_true_of_ne_false hsame) us
  rw [(h.first m).1 hm, (h.first n).1 hn] at hfind
  cases hfind
  exact Nat.lt_irrefl _ hlt

theorem eq_nil_iff : ns = [] ↔ us = [] := by
  refine ⟨fun hns => List.eq_nil_iff_forall_not_mem.2 fun u hu => ?_, fun hus =>
    List.eq_nil_iff_forall_not_mem.2 fun n hn => ?_⟩
  · obtain ⟨n, hn, -⟩ := h.covers hu
    rw [hns] at hn
    cases hn
  · have hmem := h.subset hn
    rw [hus] at hmem
    cases hmem

end FirstSpellings

theorem distinctNames_concat (us : List String) (u : String) : distinctNames (us ++ [u]) =
    if (distinctNames us).any (sameName · u) then distinctNames us else distinctNames us ++ [u] := by
  rw [distinctNames, List.foldl_append]
  rfl

theorem first_concat_iff : (us ++ [u]).find? (sameName · n) = some n ↔
    us.find? (sameName · n) = some n ∨ (∀ m ∈ us, sameName m n = false) ∧ n = u := by
  rw [List.find?_append, Option.or_eq_some_iff, List.find?_eq_none, List.find?_singleton]
  simp only [Bool.not_eq_true, Option.ite_none_right_eq_some, Option.some_inj]
  constructor
  · rintro (h | ⟨h, -, rfl⟩)
    · exact .inl h
    · exact .inr ⟨h, rfl⟩
  · rintro (h | ⟨h, rfl⟩)
    · exact .inl h
    · exact .inr ⟨h, sameName_self n, rfl⟩

namespace FirstSpellings

variable (h : FirstSpellings us ns)
include h

theorem idxOf_concat (hn : n ∈ ns) : (us ++ [u]).idxOf n = us.idxOf n :=
  List.idxOf_append_of_mem (h.subset hn)

theorem order_concat : ns.Pairwise fun m n => (us ++ [u]).idxOf m < (us ++ [u]).idxOf n :=
  h.order.imp_of_mem fun hm hn hlt => by rwa [h.idxOf_concat hm, h.idxOf_concat hn]

theorem concat_of_known (hm : m ∈ ns) (hsame : sameName m u = true) : FirstSpellings (us ++ [u]) ns := by
  refine ⟨fun n => ?_, h.order_concat⟩
  rw [first_concat_iff, h.first]
  refine ⟨.inl, fun hn => hn.resolve_right ?_⟩
  rintro ⟨hnone, rfl⟩
  rw [hnone m (h.subset hm)] at hsame
  cases hsame

theorem concat_of_new (hnew : ∀ m ∈ ns, sameName m u = false) :
    FirstSpellings (us ++ [u]) (ns ++ [u]) := by
  have hother (m : String) (hm : m ∈ us) : sameName m u = false := by
    obtain ⟨n, hn, hsame⟩ := h.covers hm
    by_contra hmu
    have hnu : sameName n u = true := by
      rw [sameName_iff, sameName_iff.1 hsame, sameName_iff.1 (eq_true_of_ne_false hmu)]
    rw [hnew n hn] at hnu
    cases hnu
  have hu : u ∉ us := fun hu => by
    have hself := hother u hu
    rw [sameName_self] at hself
    cases hself
  constructor
  · intro n
    rw [List.mem_append, List.mem_singleton, h.first, first_concat_iff]
    exact or_congr_right ⟨fun hn => ⟨hn ▸ hother, hn⟩, And.right⟩
  · refine List.pairwise_append.2 ⟨h.order_concat, List.pairwise_singleton _ _, fun m hm n hn => ?_⟩
    obtain rfl := List.mem_singleton.1 hn
    rw [h.idxOf_concat hm, List.idxOf_append_of_notMem hu]
    exact Nat.lt_add_right _ (List.idxOf_lt_length_of_mem (h.subset hm))

end FirstSpellings

theorem firstSpellings_distinctNames (us : List String) : FirstSpellings us (distinctNames us) := by
  induction us using List.reverseRecOn with
  | nil => exact ⟨fun n => by simp [distinctNames], .nil⟩
  | append_singleton us u ih =>
    rw [distinctNames_concat]
    split
    · rename_i hany
      obtain ⟨m, hm, hsame⟩ := List.any_eq_true.1 hany
      exact ih.concat_of_known hm hsame
    · rename_i hany
      refine ih.concat_of_new fun m hm => ?_
      by_contra hsame
      exact hany (List.any_eq_true.2 ⟨m, hm, eq_true_of_ne_false hsame⟩)

/-! Names that no skill has -/

def badLines : Except (List LineError) (List SkillRequirement) → List LineError
  | .ok _ => []
  | .error es => es

def unknowns (es : List LineError) : List String :=
  es.filterMap fun
    | .unknownSkill name => some name
    | _ => none

theorem mem_unknowns {es : List LineError} : n ∈ unknowns es ↔ .unknownSkill n ∈ es := by
  rw [unknowns, List.mem_filterMap]
  constructor
  · rintro ⟨e, he, hn⟩
    cases e with
    | unknownSkill name =>
      cases hn
      exact he
    | malformed | invalidLevel => cases hn
  · exact fun h => ⟨_, h, rfl⟩

theorem badLines_collect (rs : List (Except LineError SkillRequirement)) :
    badLines (collect rs) = errors rs := by
  rw [collect]
  split
  · rename_i h
    exact h.symm
  · rfl

theorem Tally.badLines_told (y : Tally) : badLines y.told = y.bad := by
  by_cases h : y.bad = []
  · rw [y.told_of_good h, h]
    rfl
  · rw [y.told_of_bad h]
    rfl

variable {ε σ : Type} {lookup : Lookup ε σ} {s t : σ} {raw : List Char} {ls : List (List Char)} {x y : Tally}
  {asked log : List String} {e : ε} {text : String}

def ask (lookup : Lookup ε σ) (name : String) : ExceptT ε (StateM σ) (String × Option Int) := do
  return (name, ← lookup name)

def name? (raw : List Char) : Option String :=
  match SkillLine.read? raw with
  | some (.ok (name, _)) => some name
  | _ => none

theorem names_eq (text : String) : names text = (Text.lines text.toList).filterMap name? := by
  rw [names, entries, List.filterMap_filterMap]
  refine List.filterMap_congr fun raw _ => ?_
  rw [name?]
  rcases SkillLine.read? raw with _ | _ | ⟨name, level⟩ <;> rfl

theorem trimmed_of_mem_names (h : n ∈ names text) : Text.Trimmed n := by
  obtain ⟨_ | ⟨name, level⟩, he, hn⟩ := List.mem_filterMap.1 h
  · cases hn
  · cases hn
    obtain ⟨raw, -, hread⟩ := List.mem_filterMap.1 he
    exact (SkillLine.read?_eq_ok_iff.1 hread).2.name_trimmed.2

theorem unknownSkill_not_mem_entries : .error (.unknownSkill n) ∉ entries text := by
  intro h
  obtain ⟨raw, hraw, hread⟩ := List.mem_filterMap.1 h
  have htells := (SkillLine.tells_iff (Text.flat_lines hraw)).2 hread
  obtain ⟨-, h⟩ := htells
  cases h

def stranger (found : String × Option Int) : Option String := if found.2.isNone then some found.1 else none

theorem unresolved_eq (lookup : Lookup ε σ) (text : String) : unresolved lookup text =
    (fun found => distinctNames (found.filterMap stranger)) <$>
      ((Text.lines text.toList).flatMap fun raw => (name? raw).toList).mapM (ask lookup) := by
  rw [unresolved, names_eq, List.filterMap_eq_flatMap_toList, map_eq_pure_bind]
  rfl

theorem name?_of_silent (h : SkillLine.Silent raw) : name? raw = none := by
  rw [name?, SkillLine.read?_eq_none_iff.2 h]

theorem name?_of_tells {r : Except LineError (String × Int)} (h : SkillLine.Tells raw r)
    (hline : '\n' ∉ raw) : name? raw = r.toOption.map (·.1) := by
  rw [name?, (SkillLine.tells_iff hline).1 h]
  cases r <;> rfl

theorem mapM_ask_of {o : Option Int} (h : lookup n s = (.ok o, t)) :
    [n].mapM (ask lookup) s = (.ok [(n, o)], t) := by
  rw [List.mapM_cons, ask, bind_assoc, bind_of_ok h]
  rfl

theorem mapM_ask_of_error (h : lookup n s = (.error e, t)) : [n].mapM (ask lookup) s = (.error e, t) := by
  rw [List.mapM_cons, ask, bind_assoc, bind_of_error h]

theorem follows_ask (lookup : Lookup ε σ) : Follows lookup (fun raw => (name? raw).toList) (ask lookup)
    fun found x => found.filterMap stranger = unknowns x.bad where
  done := rfl
  append := by
    intro found more x y hfound hmore
    rw [List.filterMap_append, hfound, hmore]
    exact List.filterMap_append.symm
  adds := by
    intro s t raw x hline h
    cases h with
    | silent line =>
      rw [name?_of_silent line]
      exact ⟨[], rfl, rfl⟩
    | @bad e line =>
      -- The error is not that of an unknown name, for no line by itself tells that.
      rw [name?_of_tells line hline]
      refine ⟨[], rfl, ?_⟩
      obtain ⟨-, line⟩ := line
      cases line <;> rfl
    | unknown line answer =>
      rw [name?_of_tells line hline]
      exact ⟨_, mapM_ask_of answer, rfl⟩
    | known line answer =>
      rw [name?_of_tells line hline]
      exact ⟨_, mapM_ask_of answer, rfl⟩
  fails := by
    intro s t raw name level e hline line answer
    rw [name?_of_tells line hline]
    exact mapM_ask_of_error answer

theorem Tallies.unresolved_tells (h : Tallies lookup s (Text.lines text.toList) y t) :
    unresolved lookup text s = (.ok (distinctNames (unknowns y.bad)), t) := by
  obtain ⟨found, hfound, hnames⟩ := (follows_ask lookup).tallies h fun _ => Text.flat_lines
  rw [unresolved_eq, map_eq_pure_bind, bind_of_ok hfound, hnames]
  rfl

theorem Stops.unresolved_fails (h : Stops lookup s (Text.lines text.toList) asked e t) :
    unresolved lookup text s = (.error e, t) := by
  have hfails := (follows_ask lookup).stops h fun _ => Text.flat_lines
  rw [unresolved_eq, map_eq_pure_bind, bind_of_error hfails]

/-- Reading a list and asking for its names hand a lookup the same names, and fail alike. When neither fails,
what is asked for are the names that are told to be unknown, each in its first spelling and once up to the
case of letters; so there is nothing to ask for just when no name is unknown. -/
theorem unknown_names_are_asked_for_once (lookup : Lookup ε σ) (text : String) (s : σ) :
    ∃ asked t,
      (∃ e, Hands (fun _ lookup => read lookup text) lookup s asked (.error e) t ∧
        Hands (fun _ lookup => unresolved lookup text) lookup s asked (.error e) t) ∨
      ∃ r ns, Hands (fun _ lookup => read lookup text) lookup s asked (.ok r) t ∧
        Hands (fun _ lookup => unresolved lookup text) lookup s asked (.ok ns) t ∧
        (ns.Pairwise fun m n => sameName m n = false) ∧ FirstSpellings (unknowns (badLines r)) ns ∧
        (∀ n ∈ ns, .unknownSkill n ∈ badLines r) ∧
        (∀ n, .unknownSkill n ∈ badLines r → ∃ m ∈ ns, sameName m n = true) ∧
        (ns = [] ↔ ∀ n, .unknownSkill n ∉ badLines r) := by
  have hflat (raw : List Char) (h : raw ∈ Text.lines text.toList) : '\n' ∉ raw := Text.flat_lines h
  obtain ⟨y, t, h⟩ | ⟨asked, e, t, h⟩ := tallies_or_stops lookup s hflat
  · refine ⟨y.asked, t, .inr ⟨y.told, distinctNames (unknowns y.bad), ?_, ?_, ?_⟩⟩
    · exact ⟨h.read_tells, fun log => h.noted.read_tells⟩
    · exact ⟨h.unresolved_tells, fun log => h.noted.unresolved_tells⟩
    · have hfirst := firstSpellings_distinctNames (unknowns y.bad)
      rw [y.badLines_told]
      refine ⟨hfirst.apart, hfirst, fun n hn => mem_unknowns.1 (hfirst.subset hn),
        fun n hn => hfirst.covers (mem_unknowns.2 hn), ?_⟩
      rw [hfirst.eq_nil_iff, List.eq_nil_iff_forall_not_mem]
      simp only [mem_unknowns]
  · refine ⟨asked, t, .inl ⟨e, ?_, ?_⟩⟩
    · exact ⟨h.read_fails, fun log => h.noted.read_fails⟩
    · exact ⟨h.unresolved_fails, fun log => h.noted.unresolved_fails⟩

end Muster.SkillList
