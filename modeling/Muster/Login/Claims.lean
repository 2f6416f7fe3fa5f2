import Muster.Json.Value
import Muster.Login.Error

/-! What the payload of an access token claims, and which claims are believed. -/

namespace Muster

inductive Parties where
  | one (name : String)
  | several (names : List String)
deriving Repr, DecidableEq

/-- A claim of the wrong type is as good as none. -/
structure Claims where
  subject : String
  name : String
  expiry : Option Nat
  issuer : Option Parties
  audience : Option Parties
deriving Repr, DecidableEq

namespace Parties

def names : Parties → List String
  | one n => [n]
  | several ns => ns

def ofJson? : Json → Option Parties
  | .text (some s) => some (.one s)
  | .array items => (items.mapM Json.asString?).map .several
  | _ => none

/-- The parties that a claim names. Anything but a number must be readable. -/
def read : Option Json → Except TokenFault (Option Parties)
  | none => .ok none
  | some (.number _) => .ok none
  | some j => if j.isHeld (Json.maxDepth - 1) then .ok (ofJson? j) else .error .json

def isAccepted (accepted : List String) : Option Parties → Bool
  | none => true
  | some p => p.names.any accepted.contains

end Parties

namespace Claims

/-- A time as a number; lists and objects with content are an error. -/
def readTime : Option Json → Except TokenFault (Option Nat)
  | some (.number n) => .ok n.toUnsigned?
  | some (.array (_ :: _)) => .error .json
  | some (.object (_ :: _)) => .error .json
  | _ => .ok none

def ofJson (j : Json) : Except TokenFault Claims := do
  match j with
  | .object _ =>
    match j.fields? [("sub", .required), ("name", .nullable), ("exp", .nullable), ("nbf", .nullable),
        ("iss", .nullable), ("aud", .nullable)] with
    | some [some sub, name, exp, nbf, iss, aud] =>
      match sub.asString?, name.elim (some "") Json.asString? with
      | some sub, some name =>
        let expiry ← readTime exp
        let _ ← readTime nbf
        return ⟨sub, name, expiry, ← Parties.read iss, ← Parties.read aud⟩
      | _, _ => throw .json
    | _ => throw .json
  | _ => throw .json

def issuers : List String := ["https://login.eveonline.com", "login.eveonline.com"]

def everyone : String := "EVE Online"

/-- Tokens are accepted this many seconds after their end. -/
def grace : Nat := 60

/-- The end, the issuer and the audience, in this order. The time is in seconds since 1970. -/
def check (c : Claims) (client : String) (now : Nat) : Except TokenFault Unit :=
  match c.expiry with
  | none => .error (.missingClaim "exp")
  | some e =>
    if e + grace < now then .error .expired
    else if !Parties.isAccepted issuers c.issuer then .error .invalidIssuer
    else if !Parties.isAccepted [client, everyone] c.audience then .error .invalidAudience
    else .ok ()

end Claims

end Muster
