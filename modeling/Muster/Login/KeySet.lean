import Muster.Crypto
import Muster.Json.Reader
import Muster.Json.Value
import Muster.Login.Error
import Muster.Text.Bytes

/-! The keys with which tokens are signed, as they are published. -/

namespace Muster

inductive KeyData where
  | curve (x y : String)
  | rsa (modulus exponent : String)
  | secret (value : String)
  | pair (x : String)
deriving Repr, DecidableEq

structure SigningKey where
  id : Option String
  data : KeyData
deriving Repr, DecidableEq

structure KeySet where
  keys : List SigningKey
deriving Repr, DecidableEq

namespace KeyData

/-- One of a list of names, alone or as the only member of an object with the value `null`. -/
def choice? (names : List String) : Json → Option String
  | .text (some s) => if names.contains s then some s else none
  | .object [(some s, .null)] => if names.contains s then some s else none
  | _ => none

def curves : List String := ["P-256", "P-384", "P-521", "Ed25519"]

def fieldsOf (family : String) (names : List String) (j : Json) : Option (List Json) := do
  match ← j.required? ("kty" :: names) with
  | k :: vs =>
    let _ ← choice? [family] k
    return vs
  | [] => none

def curve? (j : Json) : Option KeyData := do
  match ← fieldsOf "EC" ["crv", "x", "y"] j with
  | [c, x, y] =>
    let _ ← choice? curves c
    return .curve (← x.asString?) (← y.asString?)
  | _ => none

def rsa? (j : Json) : Option KeyData := do
  match ← fieldsOf "RSA" ["n", "e"] j with
  | [n, e] => return .rsa (← n.asString?) (← e.asString?)
  | _ => none

def secret? (j : Json) : Option KeyData := do
  match ← fieldsOf "oct" ["k"] j with
  | [k] => return .secret (← k.asString?)
  | _ => none

def pair? (j : Json) : Option KeyData := do
  match ← fieldsOf "OKP" ["crv", "x"] j with
  | [c, x] =>
    let _ ← choice? curves c
    return .pair (← x.asString?)
  | _ => none

def ofJson? (j : Json) : Option KeyData := ((curve? j).or (rsa? j)).or ((secret? j).or (pair? j))

def decode (s : String) : Except TokenFault Text.Bytes :=
  match Text.Base64Url.decode? s.toList with
  | some bs => .ok bs
  | none => .error .base64

/-- The RSA key, if it is one; the parts of any key must be well-formed. -/
def toRsa? : KeyData → Except TokenFault (Option Crypto.Rsa.PublicKey)
  | curve x y => do
    let _ ← decode x
    let _ ← decode y
    return none
  | rsa n e => return some ⟨← decode n, ← decode e⟩
  | secret k => do
    let _ ← decode k
    return none
  | pair x => do
    let _ ← decode x
    return none

end KeyData

namespace SigningKey

/-- The common fields of keys and headers of tokens are texts or lists of texts, and may be missing. -/
def isOptional (f : Json → Option α) (j : Option Json) : Bool :=
  ((j.getD .null).asOption? f).isSome

def ofJson? (depth : Nat) (j : Json) : Option SigningKey := do
  match j with
  | .object _ =>
    if !j.isHeld depth then none
    match ← j.fields? (["use", "key_ops", "alg", "kid", "x5u", "x5c", "x5t", "x5t#S256"].map
        fun n => (n, .nullable)) with
    | [use, ops, alg, kid, address, chain, print, print256] =>
      let texts := [use, alg, address, print, print256].all (isOptional Json.asString?)
      let lists := [ops, chain].all (isOptional (Json.asList? Json.asString?))
      if !(texts && lists) then none
      return ⟨← (kid.getD .null).asOption? Json.asString?, ← KeyData.ofJson? j⟩
    | _ => none
  | _ => none

end SigningKey

namespace KeySet

def ofJson? (j : Json) : Option KeySet := do
  match ← j.required? ["keys"] with
  | [ks] => return ⟨← ks.asList? (SigningKey.ofJson? (Json.maxDepth - 2))⟩
  | _ => none

def read? (text : String) : Option KeySet := (Json.read? text).bind ofJson?

def find? (s : KeySet) : Option String → Option SigningKey
  | some kid => s.keys.find? fun k => k.id == some kid
  | none => s.keys.head?

end KeySet

end Muster
