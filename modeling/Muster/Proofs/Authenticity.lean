import Muster.Proofs.Belief
import Muster.Proofs.SubjectText

/-! Nothing in an access token is believed that is not signed: an identity is read from a payload over
which, with its header, the one key that the header names verifies the signature. A key that is not there
is an error of its own. -/

namespace Muster

/-- The entry for a key id: the first with the id, and the first of all when no id is named. -/
inductive KeySet.Entry : KeySet → Option String → SigningKey → Prop
  | named {before after : List SigningKey} {key : SigningKey} {kid : String}
    (earlier : ∀ k ∈ before, k.id ≠ some kid) (id : key.id = some kid) :
    Entry ⟨before ++ key :: after⟩ (some kid) key
  | first (key : SigningKey) (rest : List SigningKey) : Entry ⟨key :: rest⟩ none key

def SigningKey.Publishes (key : SigningKey) (rsa : Crypto.Rsa.PublicKey) : Prop :=
  ∃ n e, key.data = .rsa n e ∧ Text.Base64Url.decode? n.toList = some rsa.modulus ∧
    Text.Base64Url.decode? e.toList = some rsa.exponent

/-- A text is a token when its last two points set off the payload and the signature. -/
structure AccessToken.Written (t : AccessToken) (text : String) : Prop where
  text_eq : text.toList = t.header ++ '.' :: t.payload ++ '.' :: t.signature
  payload : '.' ∉ t.payload
  signature : '.' ∉ t.signature

/-- What a payload says of a character: its end, to the second, is not more than a minute ago, it is about
the character with this id, and it gives this name or none. -/
structure Identity.ClaimedBy (i : Identity) (payload : Json) (now : Nat) : Prop where
  lasts : ∃ n e, payload.get? "exp" = some (.number n) ∧ n.toUnsigned? = some e ∧ now ≤ e + 60
  subject : ∃ id, payload.get? "sub" = some (.str ("CHARACTER:EVE:" ++ id)) ∧
    Text.readInt64 id.toList = some i.characterId
  name : payload.get? "name" = some (.str i.name) ∨ payload.get? "name" = none ∧ i.name = ""

theorem KeySet.find?_eq_some_iff {keys : KeySet} {kid : Option String} {key : SigningKey} :
    keys.find? kid = some key ↔ keys.Entry kid key := by
  obtain ⟨keys⟩ := keys
  constructor
  · intro h
    cases kid with
    | none =>
      obtain ⟨rest, rfl⟩ := List.head?_eq_some_iff.1 h
      exact .first key rest
    | some kid =>
      obtain ⟨hid, before, after, rfl, hearlier⟩ := List.find?_eq_some_iff_append.1 h
      exact .named (fun k hk => by simpa using hearlier k hk) (by simpa using hid)
  · intro h
    cases h with
    | named earlier id =>
      exact List.find?_eq_some_iff_append.2
        ⟨by simpa using id, _, _, rfl, fun k hk => by simpa using earlier k hk⟩
    | first => rfl

theorem KeySet.find?_eq_none_iff {keys : KeySet} {kid : Option String} :
    keys.find? kid = none ↔ ∀ key, ¬keys.Entry kid key := by
  simp only [← find?_eq_some_iff, Option.eq_none_iff_forall_ne_some, ne_eq]

theorem KeyData.decode_eq_ok {s : String} {bs : Text.Bytes} :
    decode s = .ok bs ↔ Text.Base64Url.decode? s.toList = some bs := by
  rw [decode]
  cases Text.Base64Url.decode? s.toList <;> simp

theorem SigningKey.publishes_of_toRsa? {key : SigningKey} {rsa : Crypto.Rsa.PublicKey}
    (h : key.data.toRsa? = .ok (some rsa)) : key.Publishes rsa := by
  cases hdata : key.data with
  | rsa n e =>
    rw [hdata, KeyData.toRsa?] at h
    obtain ⟨modulus, hn, h⟩ := exceptBind_eq_ok.1 h
    obtain ⟨exponent, he, h⟩ := exceptBind_eq_ok.1 h
    cases h
    exact ⟨n, e, hdata, KeyData.decode_eq_ok.1 hn, KeyData.decode_eq_ok.1 he⟩
  | curve x y =>
    rw [hdata, KeyData.toRsa?] at h
    obtain ⟨_, -, h⟩ := exceptBind_eq_ok.1 h
    obtain ⟨_, -, h⟩ := exceptBind_eq_ok.1 h
    cases h
  | secret | pair =>
    rw [hdata, KeyData.toRsa?] at h
    obtain ⟨_, -, h⟩ := exceptBind_eq_ok.1 h
    cases h

namespace AccessToken

theorem split?_eq_some_iff {text : String} {t : AccessToken} : split? text = some t ↔ t.Written text := by
  have hjoin (hs : List (List Char)) (hne : hs ≠ []) (p s : List Char) :
      ['.'].intercalate (hs ++ [p, s]) = ['.'].intercalate hs ++ '.' :: p ++ '.' :: s := by
    induction hs with
    | nil => contradiction
    | cons h hs ih =>
      cases hs with
      | nil => simp [List.intercalate_cons_cons, List.intercalate_singleton]
      | cons h' hs =>
        have hrest := ih (List.cons_ne_nil _ _)
        rw [List.cons_append] at hrest
        rw [List.cons_append, List.cons_append, List.intercalate_cons_cons, hrest,
          List.intercalate_cons_cons]
        simp only [List.append_assoc, List.cons_append]
  constructor
  · intro h
    rw [split?] at h
    split at h
    · rename_i signature payload first firsts hrev
      cases h
      have hpieces : Text.pieces '.' text.toList = (first :: firsts).reverse ++ [payload, signature] := by
        simpa using congrArg List.reverse hrev
      obtain ⟨-, hflat, htext⟩ := Text.pieces_eq_iff.1 hpieces
      rw [hjoin _ (by simp)] at htext
      exact ⟨htext.symm, hflat payload (by simp), hflat signature (by simp)⟩
    · cases h
  · intro h
    obtain ⟨htext, hpayload, hsignature⟩ := h
    have hheader : Text.pieces '.' t.header ≠ [] := List.cons_ne_nil _ _
    have hpieces : Text.pieces '.' text.toList = Text.pieces '.' t.header ++ [t.payload, t.signature] := by
      refine Text.pieces_eq_iff.2 ⟨by simp, fun p hp => ?_, ?_⟩
      · simp only [List.mem_append, List.mem_cons, List.not_mem_nil, or_false] at hp
        obtain hp | rfl | rfl := hp
        · exact Text.flat_pieces hp
        · exact hpayload
        · exact hsignature
      · rw [hjoin _ hheader, Text.intercalate_pieces, htext]
    rw [split?, hpieces]
    obtain ⟨firsts, first, hfirsts⟩ := (List.eq_nil_or_concat' _).resolve_left hheader
    have hjoined := Text.intercalate_pieces '.' t.header
    rw [hfirsts] at hjoined ⊢
    simp [hjoined]

end AccessToken

namespace Identity

variable {keys : KeySet} {client text kid : String} {now : Nat} {i : Identity}

theorem claimedBy_of_check {payload : Json} {c : Claims} (hc : Claims.ofJson payload = .ok c)
    (hcheck : c.check client now = .ok ()) (hid : readSubject c.subject = .ok i.characterId)
    (hname : i.name = c.name) : i.ClaimedBy payload now := by
  obtain ⟨hsubject, hnamed, htime, -, -⟩ := Claims.ofJson_fields hc
  obtain ⟨⟨e, he, hnow⟩, -, -⟩ := Claims.check_eq_ok.1 hcheck
  obtain ⟨id, hsub, hread⟩ := readSubject_eq_ok_iff.1 hid
  refine ⟨?_, ⟨id, hsub ▸ hsubject, hread⟩, hname ▸ hnamed⟩
  rw [he, Claims.readTime.eq_def] at htime
  split at htime
  · rename_i n hexp
    injection htime with htime
    exact ⟨n, e, hexp, htime, hnow⟩
  · cases htime
  · cases htime
  · cases htime

theorem orFault_ne_unknownKey {α : Type} {r : Except TokenFault α} : orFault r ≠ .error (.unknownKey kid) := by
  cases r <;> simp [orFault]

theorem readSubject_ne_unknownKey {subject : String} : readSubject subject ≠ .error (.unknownKey kid) := by
  rw [readSubject]
  split
  · split <;> simp
  · simp

theorem keyFor_eq_error {h : TokenHeader} {e : AuthError} :
    keyFor keys h = .error e ↔ keys.find? h.kid = none ∧ e = .unknownKey (h.kid.getD "") := by
  rw [keyFor]
  cases keys.find? h.kid <;> simp [eq_comm]

theorem validate_eq_unknownKey : validate keys client now text = .error (.unknownKey kid) ↔
    ∃ t h, AccessToken.split? text = some t ∧ TokenHeader.read t = .ok h ∧ keys.find? h.kid = none ∧
      kid = h.kid.getD "" := by
  rw [validate]
  cases AccessToken.split? text with
  | none =>
    have hthrow : (throw (.token .invalidToken) : Except AuthError Identity) ≠
        .error (.unknownKey kid) := by
      intro h
      cases h
    simp [hthrow]
  | some t =>
    have hreturn (c : Claims) (id : Int) :
        (return ⟨id, c.name⟩ : Except AuthError Identity) ≠ .error (.unknownKey kid) := by
      intro h
      cases h
    simp only [exceptBind_eq_error, orFault_ne_unknownKey, orFault_eq_ok, keyFor_eq_error,
      readSubject_ne_unknownKey, hreturn, false_or, and_false, exists_false, or_false,
      Option.some.injEq, AuthError.unknownKey.injEq]
    constructor
    · intro hunknown
      obtain ⟨h, hunknown⟩ := hunknown
      exact ⟨t, h, rfl, hunknown⟩
    · intro hunknown
      obtain ⟨_, h, rfl, hunknown⟩ := hunknown
      exact ⟨h, hunknown⟩

/-- An identity comes from a payload that is signed: with the header as it was received, the signature of
the token is one of the RSA key that the header names, by RS256. The key is unknown if and only if the
header can be read and there is no entry for the key that it names. -/
theorem validate_believes_what_is_signed (keys : KeySet) (client text : String) (now : Nat) :
    (∀ i, validate keys client now text = .ok i → ∃ t h key rsa signature payload,
      t.Written text ∧ TokenHeader.read t = .ok h ∧ h.algorithm = "RS256" ∧ keys.Entry h.kid key ∧
      key.Publishes rsa ∧ Text.Base64Url.decode? t.signature = some signature ∧
      Crypto.Rsa.verify rsa (Text.utf8 (t.header ++ '.' :: t.payload)) signature = true ∧
      AccessToken.readPart t.payload = .ok payload ∧ i.ClaimedBy payload now) ∧
    ∀ kid, validate keys client now text = .error (.unknownKey kid) ↔
      ∃ t h, t.Written text ∧ TokenHeader.read t = .ok h ∧ (∀ key, ¬keys.Entry h.kid key) ∧
        kid = h.kid.getD "" := by
  constructor
  · intro i hi
    obtain ⟨t, h, key, c, ht, hh, hkey, hclaims, hcheck, hid, hname⟩ := validate_eq_ok.1 hi
    obtain ⟨rsa, signature, payload, hrsa, halgorithm, hsignature, hverify, hpayload, hc⟩ :=
      claims_eq_ok.1 hclaims
    exact ⟨t, h, key, rsa, signature, payload, AccessToken.split?_eq_some_iff.1 ht, hh, halgorithm,
      KeySet.find?_eq_some_iff.1 hkey, SigningKey.publishes_of_toRsa? hrsa, hsignature, hverify, hpayload,
      claimedBy_of_check hc hcheck hid hname⟩
  · intro kid
    simp only [validate_eq_unknownKey, AccessToken.split?_eq_some_iff, KeySet.find?_eq_none_iff]

/-- A token that is accepted is signed by the one key there is; without that key it is not even looked at. -/
theorem lone_token_is_signed :
    loneToken.Written loneText ∧
    (∃ key rsa signature, loneKeys.Entry (some "JWT-Signature-Key") key ∧ key.Publishes rsa ∧
      Text.Base64Url.decode? loneToken.signature = some signature ∧
      Crypto.Rsa.verify rsa (Text.utf8 (loneToken.header ++ '.' :: loneToken.payload)) signature = true) ∧
    validate ⟨[]⟩ "client-1" 1800000000 loneText = .error (.unknownKey "JWT-Signature-Key") := by
  obtain ⟨hsigned, -⟩ := validate_believes_what_is_signed loneKeys "client-1" loneText 1800000000
  obtain ⟨-, hunknown⟩ := validate_believes_what_is_signed ⟨[]⟩ "client-1" loneText 1800000000
  have hwritten := AccessToken.split?_eq_some_iff.1 split?_loneText
  have hnone := KeySet.find?_eq_none_iff.1 (rfl : KeySet.find? ⟨[]⟩ (some "JWT-Signature-Key") = none)
  refine ⟨hwritten, ?_, (hunknown _).2 ⟨loneToken, _, hwritten, read_loneToken, hnone, rfl⟩⟩
  obtain ⟨t, h, key, rsa, signature, payload, ht, hh, -, hkey, hrsa, hsignature, hverify, -⟩ :=
    hsigned _ validate_loneText
  have htoken := AccessToken.split?_eq_some_iff.2 ht
  rw [split?_loneText] at htoken
  cases htoken
  rw [read_loneToken] at hh
  cases hh
  exact ⟨key, rsa, signature, hkey, hrsa, hsignature, hverify⟩

end Identity

end Muster
