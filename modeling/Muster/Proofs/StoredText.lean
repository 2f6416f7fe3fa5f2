import Muster.Proofs.JsonLayout
import Muster.Store
import Muster.Store.Roles

/-! The texts that colours, operators and settings are stored as read back as themselves. -/

namespace Muster

theorem Text.trimChars_of_no_blank {cs : List Char} (h : ∀ c ∈ cs, isBlank c = false) :
    trimChars cs = cs := by
  have drop (ds : List Char) (hd : ∀ c ∈ ds, isBlank c = false) : ds.dropWhile isBlank = ds := by
    cases ds with
    | nil => rfl
    | cons d ds => rw [List.dropWhile_cons_of_neg (by simp [hd d (by simp)])]
  rw [trimChars, trimStart, drop cs h, trimEnd, drop cs.reverse fun c hc => h c (List.mem_reverse.1 hc),
    List.reverse_reverse]

namespace Color

theorem readChannel_writeChannel (x : UInt8) :
    readChannel (hexDigit (x.toNat / 16)) (hexDigit (x.toNat % 16)) = some x := by
  have hx : x.toNat < 256 := x.toNat_lt
  have h₁ := Text.digitValue_digitChar (x.toNat / 16) (by omega) 16 (by decide) (by omega)
  have h₂ := Text.digitValue_digitChar (x.toNat % 16) (by omega) 16 (by decide) (by omega)
  have hn : 16 * (x.toNat / 16) + x.toNat % 16 = x.toNat := by omega
  rw [readChannel, hexDigit, hexDigit, h₁, h₂]
  simp [hn]

theorem hexDigit_plain : ∀ n < 16, (hexDigit n).toNat < 128 ∧ Text.isBlank (hexDigit n) = false ∧
    hexDigit n ≠ '#' := by
  decide

def hexDigits (c : Color) : List Char :=
  writeChannel c.r ++ writeChannel c.g ++ writeChannel c.b ++ if c.a = 255 then [] else writeChannel c.a

theorem mem_writeChannel {x : UInt8} {d : Char} (h : d ∈ writeChannel x) :
    d.toNat < 128 ∧ Text.isBlank d = false ∧ d ≠ '#' := by
  have hx : x.toNat < 256 := x.toNat_lt
  obtain rfl | rfl := (by simpa [writeChannel] using h : d = _ ∨ d = _)
  · exact hexDigit_plain (x.toNat / 16) (by omega)
  · exact hexDigit_plain (x.toNat % 16) (by omega)

theorem mem_hexDigits {c : Color} {d : Char} (h : d ∈ c.hexDigits) :
    d.toNat < 128 ∧ Text.isBlank d = false ∧ d ≠ '#' := by
  rw [hexDigits] at h
  split at h <;> simp only [List.mem_append, List.not_mem_nil, or_false] at h
  · obtain (h | h) | h := h <;> exact mem_writeChannel h
  · obtain ((h | h) | h) | h := h <;> exact mem_writeChannel h

theorem readDigits_hexDigits (c : Color) : readDigits c.hexDigits = .ok c := by
  have hs : (c.hexDigits.all fun d => decide (d.toNat < 128)) = true :=
    List.all_eq_true.2 fun d hd => decide_eq_true (mem_hexDigits hd).1
  have hr (x : UInt8) := readChannel_writeChannel x
  by_cases ha : c.a = 255
  · have hc : rgb c.r c.g c.b = c := by rw [rgb, ← ha]
    simp only [readDigits, hs, if_true]
    simp [hexDigits, ha, writeChannel, hr, hc, bind, Except.bind, pure, Except.pure]
  · simp only [readDigits, hs, if_true]
    simp [hexDigits, ha, writeChannel, hr, bind, Except.bind, pure, Except.pure]

theorem digits_toHex (c : Color) : digits c.toHex = c.hexDigits := by
  have htext : c.toHex.toList = '#' :: c.hexDigits := by simp [toHex, hexDigits]
  have hblank : ∀ d ∈ '#' :: c.hexDigits, Text.isBlank d = false := by
    intro d hd
    obtain rfl | hd := List.mem_cons.1 hd
    · decide
    · exact (mem_hexDigits hd).2.1
  have htrim := Text.trimChars_of_no_blank hblank
  rw [digits, htext, htrim, List.dropWhile_cons_of_pos (by decide), List.dropWhile_eq_self_iff]
  intro h
  simpa using (mem_hexDigits (List.getElem_mem h)).2.2

theorem ofHex_toHex (c : Color) : ofHex c.toHex = .ok c := by
  rw [ofHex, digits_toHex, readDigits_hexDigits]

end Color

theorem Operator.ofName?_name (op : Operator) : ofName? op.name = some op := by
  cases op <;> rfl

namespace Settings

def Fits (v : Settings) : Prop := ∀ i ∈ v.tagIds ++ v.roleIds, Text.fits64 i = true

theorem Fits.of_subset {v w : Settings} (h : v.Fits) (ht : w.tagIds ⊆ v.tagIds)
    (hr : w.roleIds ⊆ v.roleIds) : w.Fits := by
  intro i hi
  refine h i (List.mem_append.2 ?_)
  exact (List.mem_append.1 hi).imp (fun hi => ht hi) fun hi => hr hi

theorem Fits.normalize {v : Settings} (h : v.Fits) : v.normalize.Fits :=
  h.of_subset (fun _ => List.mem_eraseDups.1) fun _ => List.mem_eraseDups.1

def withoutTag (v : Settings) (id : Int) : Settings :=
  { v with tagIds := v.tagIds.filter (· != id) }

def withoutRole (v : Settings) (id : Int) : Settings :=
  { v with roleIds := v.roleIds.filter (· != id) }

theorem Fits.withoutTag {v : Settings} (h : v.Fits) (id : Int) : (v.withoutTag id).Fits :=
  h.of_subset List.filter_sublist.subset (List.Subset.refl _)

theorem Fits.withoutRole {v : Settings} (h : v.Fits) (id : Int) : (v.withoutRole id).Fits :=
  h.of_subset (List.Subset.refl _) List.filter_sublist.subset

theorem readsBack {v : Settings} (h : v.Fits) : Json.ReadsBack ofJson? v.toJson v := by
  have hids {is : List Int} (hi : ∀ i ∈ is, Text.fits64 i = true) :
      Json.ReadsBack (Json.asList? Json.asInt64?) (.list .int is) is := .list fun i hm => .int64 (hi i hm)
  have hlevel := Json.ReadsBack.str v.logLevel
  have htags := hids fun i hi => h i (List.mem_append_left _ hi)
  have hroles := hids fun i hi => h i (List.mem_append_right _ hi)
  refine ⟨Json.plain_record ?_, fun hj => ?_⟩
  · simp [hlevel.plain, htags.plain, hroles.plain]
  · obtain ⟨_, ⟨⟩ | ⟨hl, ⟨⟩ | ⟨ht, ⟨⟩ | ⟨hr, ⟨⟩⟩⟩⟩, hfields⟩ := hj.fields? (by simp)
    rw [ofJson?, hfields _ rfl]
    simp [hlevel.reads hl, htags.reads ht, hroles.reads hr]

theorem fits_of_asList? {j : Json} {is : List Int} (h : j.asList? Json.asInt64? = some is) :
    ∀ i ∈ is, Text.fits64 i = true := by
  cases j with
  | array vs =>
    rw [Json.asList?, Json.mapM_eq_some_iff] at h
    induction h with
    | nil => exact nofun
    | cons hv _ ih => exact List.forall_mem_cons.2 ⟨(Option.filter_eq_some_iff.1 hv).2, ih⟩
  | _ => cases h

theorem fits_of_read? {text : String} {v : Settings} (h : read? text = some v) : v.Fits := by
  have ids {j : Option Json} {is : List Int}
      (hj : j.elim (some []) (Json.asList? Json.asInt64?) = some is) :
      ∀ i ∈ is, Text.fits64 i = true := by
    cases j with
    | none =>
      cases hj
      simp
    | some j => exact fits_of_asList? hj
  obtain ⟨j, -, hj⟩ := Option.bind_eq_some_iff.1 h
  simp only [ofJson?, Option.bind_eq_bind, Option.bind_eq_some_iff] at hj
  obtain ⟨fields, -, hj⟩ := hj
  split at hj
  · simp only [Option.bind_eq_some_iff] at hj
    obtain ⟨l, -, t, ht, r, hr, hv⟩ := hj
    cases hv
    intro i hi
    obtain hi | hi := List.mem_append.1 hi
    · exact ids ht i hi
    · exact ids hr i hi
  · cases hj

theorem fits_of_settings? {s : Store} {v : Settings} (h : s.settings? = .ok v) : v.Fits := by
  rw [Store.settings?] at h
  split at h
  · cases h
    simp [Fits, initial]
  · split at h
    · cases h
      exact fits_of_read? ‹_›
    · cases h

theorem read?_write {v : Settings} (h : v.Fits) : read? v.write = some v := (readsBack h).written

end Settings

end Muster
