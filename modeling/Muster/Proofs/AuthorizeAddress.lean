import Mathlib.Data.List.DropRight
import Muster.Login.SignOn
import Muster.Proofs.FormText
import Muster.Proofs.Keeps

/-! The address at which a user grants access carries its parameters as they are: who reads it finds the
address of the service, the query behind it, and in the query the parameters and nothing else. -/

namespace Muster

namespace Text

variable {p : Char → Bool} {cs : List Char}

theorem cut?_eq_none (h : ∀ c ∈ cs, p c = false) : cut? p cs = none := by
  induction cs with
  | nil => rfl
  | cons c cs ih =>
    obtain ⟨hc, hcs⟩ := List.forall_mem_cons.1 h
    rw [cut?, hc, ih hcs]
    rfl

theorem cut?_append_of_some {as bs : List Char} (h : cut? p cs = some (as, bs)) (ds : List Char) :
    cut? p (cs ++ ds) = some (as, bs ++ ds) := by
  obtain ⟨d, rfl, hd, has⟩ := cut?_eq_some_iff.1 h
  exact cut?_eq_some_iff.2 ⟨d, List.append_assoc _ _ _, hd, has⟩

end Text

namespace Url

variable {cs q scheme rest : List Char} {u : Url}

theorem clean_eq_self (h : ∀ c ∈ cs, 0x20 < c.toNat) : clean cs = cs := by
  have hdrop (ds : List Char) (hd : ∀ c ∈ ds, 0x20 < c.toNat) :
      ds.dropWhile (fun c => c.toNat ≤ 0x20) = ds := by
    refine List.dropWhile_eq_self_iff.2 fun hlen => ?_
    simpa using hd _ (List.getElem_mem hlen)
  have hreverse : cs.reverse.dropWhile (fun c => c.toNat ≤ 0x20) = cs.reverse :=
    hdrop _ fun c hc => h c (List.mem_reverse.1 hc)
  simp only [clean, hdrop cs h, hreverse, List.reverse_reverse]
  refine List.filter_eq_self.2 fun c hc => ?_
  have hlt := h c hc
  have hne (d : Char) (hd : d.toNat ≤ 0x20) : (c != d) = true := by
    refine bne_iff_ne.2 fun hcd => ?_
    rw [hcd] at hlt
    omega
  rw [hne '\t' (by decide), hne '\n' (by decide), hne '\r' (by decide)]
  rfl

theorem takeScheme_append (h : takeScheme cs = some (scheme, rest)) (ds : List Char) :
    takeScheme (cs ++ ds) = some (scheme, rest ++ ds) := by
  unfold takeScheme at h ⊢
  split at h
  · rename_i c s rest' hcut
    rw [Text.cut?_append_of_some hcut]
    dsimp only
    split
    · rw [if_pos ‹_›] at h
      cases h
      rfl
    · rw [if_neg ‹_›] at h
      cases h
  · cases h

theorem splitTail_query (hcs : ∀ c ∈ cs, c ≠ '?' ∧ c ≠ '#') (hq : '#' ∉ q) :
    splitTail cs = (cs, none, none) ∧ splitTail (cs ++ '?' :: q) = (cs, some q, none) := by
  have hmark : ∀ c ∈ cs, decide (c = '?') = false := fun c hc => decide_eq_false (hcs c hc).1
  have hhash : ∀ c ∈ cs, decide (c = '#') = false := fun c hc => decide_eq_false (hcs c hc).2
  have hnone : ∀ c ∈ cs ++ '?' :: q, decide (c = '#') = false := by
    refine List.forall_mem_append.2 ⟨hhash, List.forall_mem_cons.2 ⟨by decide, fun c hc => ?_⟩⟩
    refine decide_eq_false fun h => hq ?_
    rwa [← h]
  constructor
  · rw [splitTail, Text.cut?_eq_none hhash]
    dsimp only
    rw [Text.cut?_eq_none hmark]
  · rw [splitTail, Text.cut?_eq_none hnone]
    dsimp only
    rw [Text.cut?_eq_some_iff.2 ⟨'?', rfl, by decide, hmark⟩]

theorem readAuthority_query (h : readAuthority scheme cs = .ok u) (hcs : ∀ c ∈ cs, c ≠ '?' ∧ c ≠ '#')
    (hq : '#' ∉ q) : readAuthority scheme (cs ++ '?' :: q) =
      .ok { u with query := some (escape (inQuery (commonPort scheme).isSome) q) } := by
  have hends (special : Bool) : endsHost special '?' = true := by cases special <;> rfl
  have htake (special : Bool) : (cs ++ '?' :: q).takeWhile (fun c => !endsHost special c) =
      cs.takeWhile fun c => !endsHost special c := by
    rw [List.takeWhile_append]
    split
    · rw [List.takeWhile_cons_of_neg (by simp [hends]), List.append_nil]
      exact ((List.takeWhile_prefix _).eq_of_length ‹_›).symm
    · rfl
  have hdrop (special : Bool) : (cs ++ '?' :: q).dropWhile (fun c => !endsHost special c) =
      (cs.dropWhile fun c => !endsHost special c) ++ '?' :: q := by
    rw [List.dropWhile_append]
    split
    · rename_i hempty
      rw [List.isEmpty_iff.1 hempty, List.dropWhile_cons_of_neg (by simp [hends])]
      rfl
    · rfl
  have hsplit (special : Bool) := @splitTail_query (cs.dropWhile fun c => !endsHost special c) q
    (fun c hc => hcs c ((List.dropWhile_sublist _).mem hc)) hq
  unfold readAuthority at h ⊢
  simp only [htake, hdrop, hsplit, exceptGuard_eq_ok, exceptBind_eq_ok] at h ⊢
  obtain ⟨hplace, hname, host, hhost, port, hport, hu⟩ := h
  refine ⟨hplace, hname, host, hhost, port, hport, ?_⟩
  cases hu
  rfl

theorem subset_of_takeScheme (h : takeScheme cs = some (scheme, rest)) : rest ⊆ cs := by
  unfold takeScheme at h
  split at h
  · rename_i c s rest' hcut
    obtain ⟨d, rfl, -, -⟩ := Text.cut?_eq_some_iff.1 hcut
    split at h
    · cases h
      exact fun _ h => List.mem_append_right _ (List.mem_cons_of_mem _ h)
    · cases h
  · cases h

theorem escape_encoded (special : Bool) (hq : ∀ c ∈ q, Text.Form.IsEncoded c) :
    escape (inQuery special) q = q := by
  have hkept : ∀ c ∈ q, escapeChar (inQuery special) c = [c] := by
    intro c hc
    obtain ⟨hlow, hhigh, hnone⟩ := (hq c hc).plain
    have hset : (inQuery special).contains c = false := by
      have hspace : c ≠ ' ' := by
        rintro rfl
        exact absurd hlow (by decide)
      cases special <;> simp_all [inQuery]
    have hclear : ¬(c.toNat < 0x20 || 0x7F ≤ c.toNat || (inQuery special).contains c) = true := by
      simp only [hset, Bool.or_false, Bool.or_eq_true, decide_eq_true_eq]
      omega
    exact if_neg hclear
  rw [escape, List.flatMap_congr hkept]
  simp

theorem read_query {s : String} (hread : read s = .ok u) (hscheme : takeScheme s.toList = some (scheme, rest))
    (hspecial : (commonPort scheme).isSome = true)
    (hs : ∀ c ∈ s.toList, 0x20 < c.toNat ∧ c ≠ '?' ∧ c ≠ '#')
    (hq : ∀ c ∈ q, Text.Form.IsEncoded c) :
    read (s ++ "?" ++ String.ofList q) = .ok { u with query := some q } := by
  have hlist : (s ++ "?" ++ String.ofList q).toList = s.toList ++ '?' :: q := by simp
  have hqplain : ∀ c ∈ q, 0x20 < c.toNat ∧ c ≠ '#' := by
    intro c hc
    obtain ⟨hlow, -, hnone⟩ := (hq c hc).plain
    exact ⟨hlow, fun h => hnone (by simp [h])⟩
  have hclean : clean (s.toList ++ '?' :: q) = s.toList ++ '?' :: q := by
    refine clean_eq_self (List.forall_mem_append.2 ⟨fun c hc => (hs c hc).1, ?_⟩)
    exact List.forall_mem_cons.2 ⟨by decide, fun c hc => (hqplain c hc).1⟩
  have hfile : scheme ≠ "file".toList := by
    intro h
    rw [h] at hspecial
    exact absurd hspecial (by decide +kernel)
  have hdrop : (rest ++ '?' :: q).dropWhile (fun c => c == '/' || c == '\\') =
      rest.dropWhile (fun c => c == '/' || c == '\\') ++ '?' :: q := by
    rw [List.dropWhile_append]
    split
    · rename_i hempty
      rw [List.isEmpty_iff.1 hempty]
      rfl
    · rfl
  rw [read, clean_eq_self fun c hc => (hs c hc).1, hscheme] at hread
  rw [read, hlist, hclean, takeScheme_append hscheme]
  dsimp only at hread ⊢
  rw [if_neg hfile, if_pos hspecial] at hread ⊢
  rw [hdrop, readAuthority_query hread, escape_encoded _ hq]
  · intro c hc
    exact (hs c (subset_of_takeScheme hscheme ((List.dropWhile_sublist _).mem hc))).2
  · intro hhash
    exact (hqplain _ hhash).2 rfl

theorem text_addPairs {pairs : List (String × String)} (hquery : u.query = none) (hfragment : u.fragment = none) :
    (u.addPairs pairs).text = u.text ++ "?" ++ String.ofList (Text.Form.encode pairs) := by
  simp [addPairs, text, hquery, hfragment, ← String.toList_inj]

end Url

namespace Authorize

def service : Url where
  scheme := "https".toList
  user := []
  host := some "login.eveonline.com".toList
  port := none
  path := "/v2/oauth/authorize/".toList
  query := none
  fragment := none

variable (config : Config)

theorem authorizeUrl_ofConfig :
    (SignOn.ofConfig config).authorizeUrl = "https://login.eveonline.com/v2/oauth/authorize/" := rfl

theorem read_service : Url.read (SignOn.ofConfig config).authorizeUrl = .ok service := by
  rw [authorizeUrl_ofConfig]
  decide +kernel

theorem text_service : service.text = (SignOn.ofConfig config).authorizeUrl := by
  rw [authorizeUrl_ofConfig]
  decide +kernel

theorem takeScheme_service : Url.takeScheme (SignOn.ofConfig config).authorizeUrl.toList =
    some ("https".toList, "//login.eveonline.com/v2/oauth/authorize/".toList) := by
  rw [authorizeUrl_ofConfig]
  decide +kernel

theorem plain_service : ∀ c ∈ (SignOn.ofConfig config).authorizeUrl.toList,
    0x20 < c.toNat ∧ c ≠ '?' ∧ c ≠ '#' := by
  have hplain : (SignOn.ofConfig config).authorizeUrl.toList.all
      (fun c => 0x20 < c.toNat && c != '?' && c != '#') = true := by
    rw [authorizeUrl_ofConfig]
    decide +kernel
  intro c hc
  simpa [and_assoc] using List.all_eq_true.1 hplain c hc

/-- A user is sent to the address of the service with one question mark, a query and no fragment behind it.
Who decodes the query finds the seven parameters in their order, and no others, whatever characters they are
made of. -/
theorem url_carries_its_parameters (a : Authorize) :
    let base := (SignOn.ofConfig config).authorizeUrl
    ∃ query : List Char, a.url base = .ok (base ++ "?" ++ String.ofList query) ∧
      (∀ c ∈ base.toList ++ query, c ≠ '?' ∧ c ≠ '#') ∧
      (∃ u, Url.read (base ++ "?" ++ String.ofList query) = .ok u ∧ u.query = some query ∧
        u.fragment = none ∧ u.text = base ++ "?" ++ String.ofList query) ∧
      Text.Form.decode query =
        [("response_type", "code"), ("redirect_uri", a.redirect), ("client_id", a.client),
          ("scope", String.intercalate " " a.scopes), ("code_challenge", a.challenge),
          ("code_challenge_method", "S256"), ("state", a.state)] := by
  intro base
  have hencoded : ∀ c ∈ Text.Form.encode a.pairs, Text.Form.IsEncoded c := fun _ => Text.Form.mem_encode
  have htext : (service.addPairs a.pairs).text = base ++ "?" ++ String.ofList (Text.Form.encode a.pairs) := by
    rw [Url.text_addPairs rfl rfl, text_service config]
  refine ⟨Text.Form.encode a.pairs, ?_, ?_, ?_, Text.Form.decode_encode a.pairs⟩
  · rw [url, read_service config]
    exact congrArg Except.ok htext
  · refine List.forall_mem_append.2 ⟨fun c hc => (plain_service config c hc).2, fun c hc => ?_⟩
    obtain ⟨-, -, hnone⟩ := (hencoded c hc).plain
    constructor <;> rintro rfl <;> exact hnone (by decide)
  · exact ⟨service.addPairs a.pairs, Url.read_query (read_service config) (takeScheme_service config)
      (by decide +kernel) (plain_service config) hencoded, rfl, rfl, htext⟩

end Authorize

end Muster
