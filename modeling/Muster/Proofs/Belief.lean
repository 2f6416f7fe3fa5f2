import Mathlib.Data.List.Basic
import Muster.Login.Identity
import Muster.Proofs.JsonFields
import Muster.Proofs.Keeps

/-! An access token is believed when a published key verifies its signature and the issuer and the
audience that its payload names are admitted. A payload that names none is believed all the same. -/

namespace Muster

inductive Parties.Said : Json → List String → Prop
  | one (name : String) : Said (.str name) [name]
  | several (names : List String) : Said (.list .str names) names

/-- A claim that is there and is well-formed names one of the accepted parties. -/
def Claims.Admits (accepted : List String) (claim : Option Json) : Prop :=
  ∀ v, claim = some v → ∀ names, Parties.Said v names → ∃ name ∈ names, name ∈ accepted

/-- The key that the header of a token names verifies its signature, and this is its payload. -/
def KeySet.Signs (keys : KeySet) (text : String) (payload : Json) : Prop :=
  ∃ t h key rsa signature, AccessToken.split? text = some t ∧ TokenHeader.read t = .ok h ∧
    keys.find? h.kid = some key ∧ key.data.toRsa? = .ok (some rsa) ∧ h.algorithm = "RS256" ∧
    Text.Base64Url.decode? t.signature = some signature ∧
    Crypto.Rsa.verify rsa t.signed signature = true ∧ AccessToken.readPart t.payload = .ok payload

namespace Parties

theorem said_iff {v : Json} {names : List String} :
    Said v names ↔ ∃ p, ofJson? v = some p ∧ p.names = names := by
  constructor
  · rintro (name | names)
    · exact ⟨.one name, rfl, rfl⟩
    · refine ⟨.several names, ?_, rfl⟩
      rw [Json.list, ofJson?, Json.mapM_asString?.2 rfl]
      rfl
  · rintro ⟨p, hp, rfl⟩
    rw [ofJson?.eq_def] at hp
    split at hp
    · cases hp
      exact .one _
    · obtain ⟨names, hnames, rfl⟩ := Option.map_eq_some_iff.1 hp
      rw [Json.mapM_asString?.1 hnames]
      exact .several names
    · cases hp

theorem isAccepted_iff {accepted : List String} {claim : Option Json} :
    isAccepted accepted (claim.bind ofJson?) = true ↔ Claims.Admits accepted claim := by
  cases claim with
  | none => simp [isAccepted, Claims.Admits]
  | some v =>
    cases hp : ofJson? v with
    | none => simp [isAccepted, Claims.Admits, said_iff, hp]
    | some p => simp [isAccepted, Claims.Admits, said_iff, hp]

theorem read_eq {claim : Option Json} {p : Option Parties} (h : read claim = .ok p) :
    p = claim.bind ofJson? := by
  rw [read.eq_def] at h
  split at h
  · cases h
    rfl
  · cases h
    rfl
  · split at h <;> cases h
    rfl

end Parties

namespace Claims

theorem ofJson_fields {j : Json} {c : Claims} (h : ofJson j = .ok c) :
    j.get? "sub" = some (.str c.subject) ∧
    (j.get? "name" = some (.str c.name) ∨ j.get? "name" = none ∧ c.name = "") ∧
    readTime (j.get? "exp") = .ok c.expiry ∧ Parties.read (j.get? "iss") = .ok c.issuer ∧
    Parties.read (j.get? "aud") = .ok c.audience := by
  rw [ofJson.eq_def] at h
  split at h
  · rename_i members
    split at h
    · rename_i sub name exp nbf iss aud hfields
      split at h
      · rename_i hsub hname
        obtain ⟨expiry, hexp, h⟩ := exceptBind_eq_ok.1 h
        obtain ⟨_, -, h⟩ := exceptBind_eq_ok.1 h
        obtain ⟨issuer, hissuer, h⟩ := exceptBind_eq_ok.1 h
        obtain ⟨audience, haudience, h⟩ := exceptBind_eq_ok.1 h
        cases h
        have hget := Json.fields?_object hfields
        simp only [List.map_cons, List.map_nil, List.cons.injEq] at hget
        obtain ⟨hgetSub, hgetName, hgetExp, -, hgetIss, hgetAud, -⟩ := hget
        rw [← hgetSub, ← hgetName, ← hgetExp, ← hgetIss, ← hgetAud]
        refine ⟨congrArg some (Json.asString?_eq_some.1 hsub), ?_, hexp, hissuer, haudience⟩
        cases name with
        | none => exact .inr ⟨rfl, (Option.some.inj hname).symm⟩
        | some v => exact .inl (congrArg some (Json.asString?_eq_some.1 hname))
      · cases h
    · cases h
  · cases h

theorem parties_of_ofJson {j : Json} {c : Claims} (h : ofJson j = .ok c) :
    c.issuer = (j.get? "iss").bind Parties.ofJson? ∧
      c.audience = (j.get? "aud").bind Parties.ofJson? := by
  obtain ⟨-, -, -, hissuer, haudience⟩ := ofJson_fields h
  exact ⟨Parties.read_eq hissuer, Parties.read_eq haudience⟩

theorem check_eq_ok {c : Claims} {client : String} {now : Nat} :
    c.check client now = .ok () ↔ (∃ e, c.expiry = some e ∧ now ≤ e + grace) ∧
      Parties.isAccepted issuers c.issuer = true ∧
      Parties.isAccepted [client, everyone] c.audience = true := by
  rw [check]
  cases c.expiry with
  | none => simp
  | some e => 
    simp only [Option.some.injEq, exists_eq_left']
    grind

end Claims

namespace Identity

variable {keys : KeySet} {client text : String} {now : Nat} {i : Identity}

theorem claims_eq_ok {t : AccessToken} {h : TokenHeader} {key : SigningKey} {c : Claims} :
    claims t h key = .ok c ↔ ∃ rsa signature payload, key.data.toRsa? = .ok (some rsa) ∧
      h.algorithm = "RS256" ∧ Text.Base64Url.decode? t.signature = some signature ∧
      Crypto.Rsa.verify rsa t.signed signature = true ∧
      AccessToken.readPart t.payload = .ok payload ∧ Claims.ofJson payload = .ok c := by
  rw [claims, exceptBind_eq_ok]
  constructor
  · rintro ⟨_ | rsa, hrsa, hc⟩
    · cases hc
    · obtain ⟨halgorithm, hc⟩ := exceptGuard_eq_ok.1 hc
      cases hsignature : Text.Base64Url.decode? t.signature with
      | none =>
        rw [hsignature] at hc
        cases hc
      | some signature =>
        rw [hsignature] at hc
        obtain ⟨hverify, hc⟩ := exceptGuard_eq_ok.1 hc
        obtain ⟨payload, hpayload, hc⟩ := exceptBind_eq_ok.1 hc
        exact ⟨rsa, signature, payload, hrsa, by simpa using halgorithm, rfl,
          by simpa using hverify, hpayload, hc⟩
  · rintro ⟨rsa, signature, payload, hrsa, halgorithm, hsignature, hverify, hpayload, hc⟩
    refine ⟨some rsa, hrsa, exceptGuard_eq_ok.2 ⟨by simpa using halgorithm, ?_⟩⟩
    rw [hsignature]
    exact exceptGuard_eq_ok.2 ⟨by simpa using hverify, exceptBind_eq_ok.2 ⟨payload, hpayload, hc⟩⟩

theorem keyFor_eq_ok {h : TokenHeader} {key : SigningKey} :
    keyFor keys h = .ok key ↔ keys.find? h.kid = some key := by
  rw [keyFor]
  cases keys.find? h.kid <;> simp

theorem orFault_eq_ok {α : Type} {r : Except TokenFault α} {a : α} : orFault r = .ok a ↔ r = .ok a := by
  cases r <;> simp [orFault]

theorem validate_eq_ok : validate keys client now text = .ok i ↔
    ∃ t h key c, AccessToken.split? text = some t ∧ TokenHeader.read t = .ok h ∧
      keys.find? h.kid = some key ∧ claims t h key = .ok c ∧ c.check client now = .ok () ∧
      readSubject c.subject = .ok i.characterId ∧ i.name = c.name := by
  rw [validate]
  cases AccessToken.split? text with
  | none =>
    constructor
    · intro h
      cases h
    · rintro ⟨_, _, _, _, h, -⟩
      cases h
  | some t =>
    simp only [exceptBind_eq_ok, orFault_eq_ok, keyFor_eq_ok, Option.some.injEq]
    constructor
    · rintro ⟨h, hh, key, hkey, c, hc, _, hcheck, id, hid, hi⟩
      cases hi
      exact ⟨t, h, key, c, rfl, hh, hkey, hc, hcheck, hid, rfl⟩
    · rintro ⟨_, h, key, c, rfl, hh, hkey, hc, hcheck, hid, hname⟩
      obtain ⟨id, name⟩ := i
      cases hname
      exact ⟨h, hh, key, hkey, c, hc, (), hcheck, id, hid, rfl⟩

/-- A token is accepted just when the key of its header verifies its signature, it has not ended, its
subject is a character, and the issuer and the audience that its payload names are accepted ones. Nothing
is asked of a payload that names neither. -/
theorem validate_ok_iff_signed_and_admitted (keys : KeySet) (client text : String) (now : Nat)
    (i : Identity) :
    validate keys client now text = .ok i ↔
      ∃ payload c, keys.Signs text payload ∧ Claims.ofJson payload = .ok c ∧
        (∃ e, c.expiry = some e ∧ now ≤ e + 60) ∧
        Claims.Admits ["https://login.eveonline.com", "login.eveonline.com"] (payload.get? "iss") ∧
        Claims.Admits [client, "EVE Online"] (payload.get? "aud") ∧
        readSubject c.subject = .ok i.characterId ∧ i.name = c.name := by
  rw [validate_eq_ok]
  constructor
  · rintro ⟨t, h, key, c, ht, hh, hkey, hclaims, hcheck, hid, hname⟩
    obtain ⟨rsa, signature, payload, hrsa, halgorithm, hsignature, hverify, hpayload, hc⟩ :=
      claims_eq_ok.1 hclaims
    obtain ⟨hexpiry, hissuer, haudience⟩ := Claims.check_eq_ok.1 hcheck
    obtain ⟨hiss, haud⟩ := Claims.parties_of_ofJson hc
    rw [hiss, Parties.isAccepted_iff] at hissuer
    rw [haud, Parties.isAccepted_iff] at haudience
    exact ⟨payload, c, ⟨t, h, key, rsa, signature, ht, hh, hkey, hrsa, halgorithm, hsignature, hverify,
      hpayload⟩, hc, hexpiry, hissuer, haudience, hid, hname⟩
  · rintro ⟨payload, c, ⟨t, h, key, rsa, signature, ht, hh, hkey, hrsa, halgorithm, hsignature, hverify,
      hpayload⟩, hc, hexpiry, hissuer, haudience, hid, hname⟩
    obtain ⟨hiss, haud⟩ := Claims.parties_of_ofJson hc
    have hclaims := claims_eq_ok.2
      ⟨rsa, signature, payload, hrsa, halgorithm, hsignature, hverify, hpayload, hc⟩
    refine ⟨t, h, key, c, ht, hh, hkey, hclaims, Claims.check_eq_ok.2 ⟨hexpiry, ?_, ?_⟩, hid, hname⟩
    · rw [hiss, Parties.isAccepted_iff]
      exact hissuer
    · rw [haud, Parties.isAccepted_iff]
      exact haudience

/-! A token that names neither an issuer nor an audience -/

def wide (words : List Nat) : Text.Bytes :=
  Crypto.Sha256.bigEndian 256 (words.foldl (fun n w => (n <<< 256) + w) 0)

def loneKey : Crypto.Rsa.PublicKey where
  modulus := wide
    [ 0xD339072BE8EC4C147FD66548826F66D8324280F3A6613C0468F9F3DDF2FBD5A4,
      0x3F5501C09C3F538FBA3BE04AD74C3388F6008CEDED90631A8A6CBD276430A229,
      0x8BE033A3E770396B8EDEA39D39ED8B17AC21CBB79066DD8E0A15FEE08EF69149,
      0x89D4685F8DA986784A63CD81E1664850F951F35969A68BD9F8F85BC4023F7D95,
      0x56B6435E437FCEA58B2504F5A4E486707C9F69B45C768655D2EF958CEAD20631,
      0x2EFDC02DC99539614DCC878F2CDB3549A6F9931BD11D5574A86FE946BD4D9E4C,
      0x335B6F923EEFED49E047FFE6199EBF52BEB4D2332A1E58B998164E38384FA673,
      0x27894DE565E8F4641F9C47015AD231DE132CDF4A7CF13BA3D94B7787447FC27D]
  exponent := [1, 0, 1]

def loneKeys : KeySet :=
  ⟨[⟨some "JWT-Signature-Key", .rsa (.ofList (Text.Base64Url.encode loneKey.modulus)) "AQAB"⟩]⟩

def loneSignature : Text.Bytes := wide
    [ 0x4DD9E61CB557B97D86005A169F5114633CC8C003E82C771F3CCD88CF21A8DC3E,
      0x065674D457BC115707DC6FBD31C297FB72F800D28EFB05DFE5D1312FC168CB0A,
      0xC6D6ADDBF2A709C8B49C360EFDD7F243566A74FE63520F7C1E14CF70B3A0CD1B,
      0x627364DFC46D6F594E3F21A9BC6CAC41029900DAC374D8313815B0001713B8E5,
      0xC331BC89D2506549F97AFCF0D33C6718E48AF99B82507C86FE090070D330D97B,
      0x511F38597C02C59A1FBBA4D79AFF06135FED0DD97B8AE9D4B80EBF8E9FE9ECD9,
      0xA47FAD38EC6416732C1BBDCB18E6CA17E835BAA1A8C99A286F4D44E7134C2E9A,
      0x5EDDC706749CFB81B0439990C16B01578118264D82F62FB7EEA794FDA274D51D]

def loneToken : AccessToken where
  header := Text.Base64Url.encode
    (Text.bytesOf "\x7b\"alg\":\"RS256\",\"kid\":\"JWT-Signature-Key\"\x7d")
  payload := Text.Base64Url.encode
    (Text.bytesOf "\x7b\"sub\":\"CHARACTER:EVE:2112625428\",\"exp\":4102444800\x7d")
  signature := Text.Base64Url.encode loneSignature

def loneText : String :=
  .ofList (loneToken.header ++ '.' :: loneToken.payload ++ '.' :: loneToken.signature)

def lonePayload : Json :=
  .record [("sub", .str "CHARACTER:EVE:2112625428"), ("exp", .int 4102444800)]

theorem split?_loneText : AccessToken.split? loneText = some loneToken := by
  rw [AccessToken.split?, loneText, String.toList_ofList]
  decide +kernel

theorem toRsa?_loneKey : KeyData.toRsa? (.rsa (.ofList (Text.Base64Url.encode loneKey.modulus)) "AQAB") =
    .ok (some loneKey) := by
  rw [KeyData.toRsa?, KeyData.decode, String.toList_ofList]
  decide +kernel

theorem read_loneToken : TokenHeader.read loneToken = .ok ⟨"RS256", some "JWT-Signature-Key"⟩ := by
  decide +kernel

theorem signs_loneText : loneKeys.Signs loneText lonePayload :=
  ⟨loneToken, ⟨"RS256", some "JWT-Signature-Key"⟩, _, loneKey, loneSignature, split?_loneText,
    read_loneToken, rfl, toRsa?_loneKey, rfl, by decide +kernel, by decide +kernel, by rfl⟩

theorem validate_loneText :
    validate loneKeys "client-1" 1800000000 loneText = .ok ⟨2112625428, ""⟩ := by
  obtain ⟨t, h, key, rsa, signature, ht, hh, hkey, hrsa, halgorithm, hsignature, hverify, hpayload⟩ :=
    signs_loneText
  have hclaims := claims_eq_ok.2 ⟨rsa, signature, _, hrsa, halgorithm, hsignature, hverify, hpayload,
    (rfl : Claims.ofJson lonePayload = .ok ⟨"CHARACTER:EVE:2112625428", "", some 4102444800, none, none⟩)⟩
  exact validate_eq_ok.2 ⟨t, h, key, _, ht, hh, hkey, hclaims, by decide, by decide, rfl⟩

/-- The signature alone makes a token be accepted that tells neither who issued it nor whom it is for. -/
theorem unaddressed_token_is_accepted :
    loneKeys.Signs loneText lonePayload ∧ lonePayload.get? "iss" = none ∧
      lonePayload.get? "aud" = none ∧
      validate loneKeys "client-1" 1800000000 loneText = .ok ⟨2112625428, ""⟩ :=
  ⟨signs_loneText, rfl, rfl, validate_loneText⟩

end Identity

end Muster
