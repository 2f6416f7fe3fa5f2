import Muster.Table

/-! What is under a key of a table after each operation. -/

namespace Muster.Table

variable {κ β γ : Type} [Ord κ]

@[simp] theorem get?_empty (k : κ) : (empty : Table κ β).get? k = none := rfl

@[simp] theorem toList_empty : (empty : Table κ β).toList = [] := rfl

theorem ascending (t : Table κ β) : t.toList.Pairwise fun a b => compare a.1 b.1 = .lt :=
  List.pairwise_reverse.2 t.descending

theorem toList_filter (p : κ → β → Bool) (t : Table κ β) :
    (t.filter p).toList = t.toList.filter fun e => p e.1 e.2 :=
  List.filter_reverse.symm

theorem toList_map (f : κ → β → γ) (t : Table κ β) :
    (t.map f).toList = t.toList.map fun e => (e.1, f e.1 e.2) :=
  List.map_reverse.symm

def All (t : Table κ β) (p : κ → β → Prop) : Prop := ∀ k v, t.get? k = some v → p k v

theorem All.imp {t : Table κ β} {p q : κ → β → Prop} (h : t.All p) (hpq : ∀ k v, p k v → q k v) :
    t.All q :=
  fun k v hv => hpq k v (h k v hv)

variable [Std.LawfulEqOrd κ]

theorem getFrom_cons [DecidableEq κ] (k : κ) (e : κ × β) (l : List (κ × β)) :
    getFrom k (e :: l) = if k = e.1 then some e.2 else getFrom k l := by
  rw [getFrom]
  by_cases h : k = e.1
  · simp [h]
  · have hne : compare k e.1 ≠ .eq := fun he => h (Std.LawfulEqCmp.eq_of_compare he)
    simp [h, hne]

theorem not_lt_self (k : κ) : compare k k ≠ .lt := by
  simp [Std.ReflCmp.compare_self]

theorem mem_of_getFrom {k : κ} {v : β} {l : List (κ × β)} (h : getFrom k l = some v) :
    (k, v) ∈ l := by
  classical
  induction l with
  | nil => cases h
  | cons e l ih =>
    rw [getFrom_cons] at h
    split at h
    · rename_i hk
      cases h
      simp [hk]
    · exact List.mem_cons_of_mem e (ih h)

theorem getFrom_of_mem {k : κ} {v : β} {l : List (κ × β)}
    (h : l.Pairwise fun a b => compare b.1 a.1 = .lt) (hm : (k, v) ∈ l) :
    getFrom k l = some v := by
  classical
  induction l with
  | nil => cases hm
  | cons e l ih =>
    obtain ⟨he, hl⟩ := List.pairwise_cons.1 h
    rw [getFrom_cons]
    obtain rfl | hm := List.mem_cons.1 hm
    · simp
    · have hlt := he (k, v) hm
      have hne : k ≠ e.1 := by
        rintro rfl
        exact not_lt_self _ hlt
      rw [if_neg hne]
      exact ih hl hm

theorem mem_toList {t : Table κ β} {k : κ} {v : β} : (k, v) ∈ t.toList ↔ t.get? k = some v :=
  List.mem_reverse.trans ⟨getFrom_of_mem t.descending, mem_of_getFrom⟩

theorem nodup_toList (t : Table κ β) : t.toList.Nodup := by
  refine t.ascending.imp ?_
  rintro a b hab rfl
  exact not_lt_self a.1 hab

theorem nodup_keys (t : Table κ β) : t.keys.Nodup := by
  refine List.pairwise_map.2 (t.ascending.imp fun {a b} hab heq => ?_)
  rw [heq] at hab
  exact not_lt_self _ hab

theorem contains_of_mem_toList {t : Table κ β} {e : κ × β} (h : e ∈ t.toList) :
    t.contains e.1 = true :=
  Option.isSome_iff_exists.2 ⟨e.2, mem_toList.1 h⟩

theorem ext_get? [Std.OrientedOrd κ] {t u : Table κ β} (h : ∀ k, t.get? k = u.get? k) : t = u := by
  have hp : t.toList.Perm u.toList := by
    rw [List.perm_ext_iff_of_nodup (nodup_toList t) (nodup_toList u)]
    rintro ⟨k, v⟩
    rw [mem_toList, mem_toList, h k]
  have hl : t.toList = u.toList := by
    refine hp.eq_of_pairwise (fun a b _ _ hab hba => ?_) t.ascending u.ascending
    have hswap : compare a.1 b.1 = (compare b.1 a.1).swap := Std.OrientedCmp.eq_swap
    rw [hab, hba] at hswap
    cases hswap
  have he : t.entries = u.entries := List.reverse_inj.1 hl
  cases t
  cases u
  cases he
  rfl

theorem mem_keys {t : Table κ β} {k : κ} : k ∈ t.keys ↔ t.contains k = true := by
  rw [contains, Option.isSome_iff_exists, keys, List.mem_map]
  constructor
  · rintro ⟨⟨k, v⟩, hm, rfl⟩
    exact ⟨v, mem_toList.1 hm⟩
  · rintro ⟨v, hv⟩
    exact ⟨(k, v), mem_toList.2 hv, rfl⟩

theorem getFrom_map (f : κ → β → γ) (k : κ) (l : List (κ × β)) :
    getFrom k (l.map fun e => (e.1, f e.1 e.2)) = (getFrom k l).map (f k) := by
  classical
  induction l with
  | nil => rfl
  | cons e l ih =>
    rw [List.map_cons, getFrom_cons, getFrom_cons, ih]
    split
    · rename_i hk
      simp [hk]
    · rfl

@[simp] theorem get?_map (f : κ → β → γ) (t : Table κ β) (k : κ) :
    (t.map f).get? k = (t.get? k).map (f k) :=
  getFrom_map f k t.entries

@[simp] theorem get?_filter (p : κ → β → Bool) (t : Table κ β) (k : κ) :
    (t.filter p).get? k = (t.get? k).filter (p k) := by
  ext v
  rw [← mem_toList, Option.filter_eq_some_iff, ← mem_toList, toList_filter, List.mem_filter]

@[simp] theorem contains_map (f : κ → β → γ) (t : Table κ β) (k : κ) :
    (t.map f).contains k = t.contains k := by
  simp [contains]

@[simp] theorem contains_adjust (f : β → β) (t : Table κ β) (k k' : κ) :
    (t.adjust k f).contains k' = t.contains k' :=
  contains_map _ t k'

theorem contains_of_filter {p : κ → β → Bool} {t : Table κ β} {k : κ}
    (h : (t.filter p).contains k = true) : t.contains k = true := by
  obtain ⟨v, hv⟩ := Option.isSome_iff_exists.1 h
  rw [get?_filter, Option.filter_eq_some_iff] at hv
  exact Option.isSome_iff_exists.2 ⟨v, hv.1⟩

theorem All.map {t : Table κ β} {p : κ → β → Prop} {q : κ → γ → Prop} (h : t.All p) {f : κ → β → γ}
    (hf : ∀ k v, p k v → q k (f k v)) : (t.map f).All q := by
  intro k w hw
  rw [get?_map, Option.map_eq_some_iff] at hw
  obtain ⟨v, hv, rfl⟩ := hw
  exact hf k v (h k v hv)

theorem All.filter {t : Table κ β} {p : κ → β → Prop} (h : t.All p) (keep : κ → β → Bool) :
    (t.filter keep).All p := by
  intro k v hv
  rw [get?_filter, Option.filter_eq_some_iff] at hv
  exact h k v hv.1

theorem All.erase {t : Table κ β} {p : κ → β → Prop} (h : t.All p) (k : κ) : (t.erase k).All p :=
  h.filter _

theorem All.adjust {t : Table κ β} {p : κ → β → Prop} (h : t.All p) (k : κ) {f : β → β}
    (hf : ∀ v, p k v → p k (f v)) : (t.adjust k f).All p := by
  refine h.map fun k' v hv => ?_
  split
  · have hk := Std.LawfulEqCmp.eq_of_compare ‹_›
    subst hk
    exact hf v hv
  · exact hv

section

variable [DecidableEq κ]

theorem getFrom_insertInto (k : κ) (v : β) (k' : κ) (l : List (κ × β)) :
    getFrom k' (insertInto k v l) = if k' = k then some v else getFrom k' l := by
  induction l with
  | nil => rw [insertInto, getFrom_cons]
  | cons e l ih =>
    rw [insertInto]
    split
    · rw [getFrom_cons]
    · rename_i hk
      have hk := Std.LawfulEqCmp.eq_of_compare hk
      subst hk
      rw [getFrom_cons, getFrom_cons]
      grind
    · rename_i hk
      have hne : k ≠ e.1 := by
        rintro rfl
        simp [Std.ReflCmp.compare_self] at hk
      rw [getFrom_cons, getFrom_cons, ih]
      grind

@[simp] theorem get?_adjust (t : Table κ β) (k : κ) (f : β → β) (k' : κ) :
    (t.adjust k f).get? k' = if k' = k then (t.get? k').map f else t.get? k' := by
  rw [adjust, get?_map]
  by_cases h : k' = k
  · simp [h]
  · have hne : compare k k' ≠ .eq := fun he => h (Std.LawfulEqCmp.eq_of_compare he).symm
    simp [h, hne]

theorem adjust_congr [Std.OrientedOrd κ] {t : Table κ β} {k : κ} {f g : β → β}
    (h : ∀ v, t.get? k = some v → f v = g v) : t.adjust k f = t.adjust k g := by
  refine ext_get? fun k' => ?_
  rw [get?_adjust, get?_adjust]
  split
  · rename_i hk
    subst hk
    exact Option.map_congr h
  · rfl

theorem adjust_self [Std.OrientedOrd κ] (t : Table κ β) (k : κ) : t.adjust k (fun v => v) = t := by
  refine ext_get? fun k' => ?_
  simp

theorem adjust_of_contains_eq_false [Std.OrientedOrd κ] {t : Table κ β} {k : κ}
    (h : t.contains k = false) (f : β → β) : t.adjust k f = t := by
  refine (adjust_congr fun v hv => ?_).trans (adjust_self t k)
  rw [contains, hv] at h
  cases h

theorem adjust_adjust [Std.OrientedOrd κ] (t : Table κ β) (k : κ) (f g : β → β) :
    (t.adjust k f).adjust k g = t.adjust k fun v => g (f v) := by
  refine ext_get? fun k' => ?_
  by_cases h : k' = k <;> simp [h, Function.comp_def]

@[simp] theorem get?_erase (t : Table κ β) (k k' : κ) :
    (t.erase k).get? k' = if k' = k then none else t.get? k' := by
  rw [erase, get?_filter]
  by_cases h : k' = k
  · simp [h]
  · have hne : (compare k k' != .eq) = true :=
      bne_iff_ne.2 fun he => h (Std.LawfulEqCmp.eq_of_compare he).symm
    cases t.get? k' <;> simp [h, hne]

theorem contains_erase (t : Table κ β) (k k' : κ) :
    (t.erase k).contains k' = (decide (k' ≠ k) && t.contains k') := by
  by_cases h : k' = k <;> simp [contains, h]

theorem filter_flatMap_toList (t : Table κ β) (f : κ × β → List γ) (key : γ → κ)
    (hf : ∀ e, ∀ x ∈ f e, key x = e.1) (k : κ) :
    (t.toList.flatMap f).filter (fun x => key x = k) = ((t.get? k).map fun v => f (k, v)).getD [] := by
  obtain ⟨l, hl⟩ := t
  rw [get?, toList]
  induction l with
  | nil => rfl
  | cons e l ih =>
    obtain ⟨he, hl⟩ := List.pairwise_cons.1 hl
    rw [List.reverse_cons, List.flatMap_append, List.filter_append, List.flatMap_singleton, getFrom_cons]
    by_cases hk : k = e.1
    · have hlast : (f e).filter (fun x => key x = k) = f e :=
        List.filter_eq_self.2 fun x hx => decide_eq_true (hk ▸ hf e x hx)
      have hrest : (l.reverse.flatMap f).filter (fun x => key x = k) = [] := by
        refine List.filter_eq_nil_iff.2 fun x hx hxk => ?_
        obtain ⟨e', he', hx⟩ := List.mem_flatMap.1 hx
        have hlt := he e' (List.mem_reverse.1 he')
        rw [← hf e' x hx, of_decide_eq_true hxk, hk] at hlt
        exact not_lt_self _ hlt
      rw [hrest, hlast, if_pos hk, List.nil_append, hk]
      rfl
    · have hlast : (f e).filter (fun x => key x = k) = [] := by
        refine List.filter_eq_nil_iff.2 fun x hx hxk => hk ?_
        rw [← hf e x hx, of_decide_eq_true hxk]
      rw [hlast, if_neg hk, List.append_nil]
      exact ih hl

theorem toList_erase (t : Table κ β) (k : κ) :
    (t.erase k).toList = t.toList.filter fun e => e.1 ≠ k := by
  rw [erase, toList_filter]
  refine List.filter_congr fun e _ => ?_
  by_cases hk : e.1 = k
  · simp [hk]
  · simp [hk, Ne.symm hk]

theorem erase_eq_self_iff [Std.OrientedOrd κ] {t : Table κ β} {k : κ} :
    t.erase k = t ↔ t.contains k = false := by
  constructor
  · intro h
    rw [← h, contains_erase]
    simp
  · intro h
    refine ext_get? fun k' => ?_
    rw [get?_erase]
    split
    · rename_i he
      rw [he, Option.not_isSome_iff_eq_none.1 (Bool.eq_false_iff.1 h)]
    · rfl

theorem flatMap_toList_erase (t : Table κ β) (f : κ × β → List γ) (key : γ → κ)
    (hf : ∀ e, ∀ x ∈ f e, key x = e.1) (k : κ) :
    (t.erase k).toList.flatMap f = (t.toList.flatMap f).filter fun x => key x ≠ k := by
  rw [toList_erase, List.filter_flatMap]
  induction t.toList with
  | nil => rfl
  | cons e l ih =>
    rw [List.flatMap_cons, ← ih]
    by_cases hk : e.1 = k
    · have hnone : (f e).filter (fun x => key x ≠ k) = [] :=
        List.filter_eq_nil_iff.2 fun x hx => by simp [hf e x hx, hk]
      rw [List.filter_cons_of_neg (by simp [hk]), hnone, List.nil_append]
    · have hall : (f e).filter (fun x => key x ≠ k) = f e :=
        List.filter_eq_self.2 fun x hx => by simp [hf e x hx, hk]
      rw [List.filter_cons_of_pos (by simp [hk]), hall, List.flatMap_cons]

variable [Std.TransOrd κ]

@[simp] theorem get?_insert (t : Table κ β) (k : κ) (v : β) (k' : κ) :
    (t.insert k v).get? k' = if k' = k then some v else t.get? k' :=
  getFrom_insertInto k v k' t.entries

@[simp] theorem contains_insert (t : Table κ β) (k : κ) (v : β) (k' : κ) :
    (t.insert k v).contains k' = (decide (k' = k) || t.contains k') := by
  by_cases h : k' = k <;> simp [contains, h]

theorem All.insert {t : Table κ β} {p : κ → β → Prop} (h : t.All p) {k : κ} {v : β} (hv : p k v) :
    (t.insert k v).All p := by
  intro k' v' h'
  rw [get?_insert] at h'
  split at h'
  · cases h'
    subst k'
    exact hv
  · exact h k' v' h'

theorem get?_ofList (l : List (κ × β)) (k : κ) :
    (ofList l).get? k = (l.reverse.find? fun e => e.1 = k).map (·.2) := by
  rw [ofList, ← List.foldr_reverse]
  induction l.reverse with
  | nil => rfl
  | cons e l ih =>
    rw [List.foldr_cons, get?_insert, ih, List.find?_cons]
    grind

theorem get?_ofList_eq_some {l : List (κ × β)} {k : κ} {v : β} :
    (ofList l).get? k = some v ↔
      ∃ before after, l = before ++ (k, v) :: after ∧ ∀ e ∈ after, e.1 ≠ k := by
  rw [get?_ofList, Option.map_eq_some_iff]
  constructor
  · rintro ⟨⟨k', v'⟩, hfound, rfl⟩
    obtain ⟨hk, after, before, hl, hafter⟩ := List.find?_eq_some_iff_append.1 hfound
    cases of_decide_eq_true hk
    refine ⟨before.reverse, after.reverse, ?_, fun e he => ?_⟩
    · rw [← List.reverse_reverse l, hl]
      simp
    · simpa using hafter e (List.mem_reverse.1 he)
  · rintro ⟨before, after, rfl, hafter⟩
    refine ⟨(k, v), List.find?_eq_some_iff_append.2 ⟨decide_eq_true rfl, after.reverse, before.reverse,
      by simp, fun e he => ?_⟩, rfl⟩
    simpa using hafter e (List.mem_reverse.1 he)

theorem get?_collect (key : β → κ) (t : Table κ (List β)) (v : β) (k : κ) :
    ((collect key t v).get? k).getD [] =
      (t.get? k).getD [] ++ if key v = k then [v] else [] := by
  rw [collect, get?_insert]
  by_cases h : k = key v
  · simp [h]
  · simp [h, Ne.symm h]

theorem get?_foldl_collect (key : β → κ) (l : List β) (t : Table κ (List β)) (k : κ) :
    ((l.foldl (collect key) t).get? k).getD [] =
      (t.get? k).getD [] ++ l.filter fun v => key v = k := by
  induction l generalizing t with
  | nil => simp
  | cons v l ih =>
    rw [List.foldl_cons, ih, get?_collect, List.append_assoc, List.filter_cons]
    by_cases h : key v = k <;> simp [h]

theorem get?_foldl_insert (l : List (κ × β)) (t : Table κ β) (k : κ) :
    (l.foldl (fun t e => t.insert e.1 e.2) t).get? k = ((ofList l).get? k).or (t.get? k) := by
  rw [ofList]
  induction l generalizing t with
  | nil => simp
  | cons e l ih =>
    rw [List.foldl_cons, List.foldl_cons, ih, ih (insert empty e.1 e.2), Option.or_assoc,
      get?_insert, get?_insert]
    by_cases h : k = e.1 <;> simp [h]

theorem contains_ofList (l : List (κ × β)) (k : κ) :
    (ofList l).contains k = l.any fun e => e.1 = k := by
  rw [contains, get?_ofList, Option.isSome_map, Bool.eq_iff_iff, List.find?_isSome]
  simp

theorem insert_adjust (t : Table κ β) (k : κ) (v : β) (f : β → β) :
    (t.insert k v).adjust k f = t.insert k (f v) := by
  refine ext_get? fun k' => ?_
  by_cases h : k' = k <;> simp [h]

/-- Two values may be put in any order, unless they are put under one key and differ. -/
theorem insert_comm (t : Table κ β) {k k' : κ} {v v' : β} (h : k = k' → v = v') :
    (t.insert k v).insert k' v' = (t.insert k' v').insert k v := by
  refine ext_get? fun i => ?_
  simp only [get?_insert]
  grind

theorem get?_ofList_toList (t : Table κ β) (k : κ) : (ofList t.toList).get? k = t.get? k := by
  rw [get?_ofList]
  ext v
  constructor
  · intro h
    obtain ⟨e, he, rfl⟩ := Option.map_eq_some_iff.1 h
    have hk : e.1 = k := by simpa using List.find?_some he
    subst hk
    exact mem_toList.1 (List.mem_reverse.1 (List.mem_of_find?_eq_some he))
  · intro h
    have hm : (k, v) ∈ t.toList.reverse := List.mem_reverse.2 (mem_toList.2 h)
    obtain ⟨e, he⟩ := Option.isSome_iff_exists.1
      (List.find?_isSome.2 ⟨(k, v), hm, decide_eq_true rfl⟩ :
        (t.toList.reverse.find? fun e => decide (e.1 = k)).isSome = true)
    have hk : e.1 = k := by simpa using List.find?_some he
    have hv : t.get? k = some e.2 :=
      hk ▸ mem_toList.1 (List.mem_reverse.1 (List.mem_of_find?_eq_some he))
    rw [he, Option.map_some, ← hv, h]

/-- Grouping loses, repeats and reorders nothing. -/
theorem getD_get?_group (key : β → κ) (l : List β) (k : κ) :
    ((group key l).get? k).getD [] = l.filter fun v => key v = k := by
  rw [group, get?_foldl_collect]
  simp

end

end Muster.Table
