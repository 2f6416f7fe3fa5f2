import Muster.Json.Token

/-! Reading a JSON text: its words drive a stack of unfinished arrays and objects. -/

namespace Muster.Json

/-- An unfinished array or object; what it holds so far is kept in reverse. -/
inductive Unfinished where
  | array (items : List Json)
  | object (members : List (Literal × Json))
  | member (members : List (Literal × Json)) (name : Literal)

inductive Expect where
  | value
  | firstItem
  | firstName
  | name
  | colon
  | separator

inductive Reader where
  | within (stack : List Unfinished) (expect : Expect)
  | done (value : Json)

namespace Reader

def close (v : Json) : List Unfinished → Option Reader
  | [] => some (.done v)
  | .array items :: stack => some (.within (.array (v :: items) :: stack) .separator)
  | .member members name :: stack => some (.within (.object ((name, v) :: members) :: stack) .separator)
  | .object _ :: _ => none

def startValue (stack : List Unfinished) : Token → Option Reader
  | .scalar v => close v stack
  | .text t => close (.text t) stack
  | .openArray => some (.within (.array [] :: stack) .firstItem)
  | .openObject => some (.within (.object [] :: stack) .firstName)
  | _ => none

def startMember (stack : List Unfinished) : Token → Option Reader
  | .text t =>
    match stack with
    | .object members :: stack => some (.within (.member members t :: stack) .colon)
    | _ => none
  | _ => none

def closeTop (stack : List Unfinished) : Token → Option Reader
  | .closeArray =>
    match stack with
    | .array items :: stack => close (.array items.reverse) stack
    | _ => none
  | .closeObject =>
    match stack with
    | .object members :: stack => close (.object members.reverse) stack
    | _ => none
  | .comma =>
    match stack with
    | .array _ :: _ => some (.within stack .value)
    | .object _ :: _ => some (.within stack .name)
    | _ => none
  | _ => none

def step (t : Token) : Reader → Option Reader
  | .done _ => none
  | .within stack .value => startValue stack t
  | .within stack .firstItem =>
    match t with
    | .closeArray => closeTop stack t
    | t => startValue stack t
  | .within stack .firstName =>
    match t with
    | .closeObject => closeTop stack t
    | t => startMember stack t
  | .within stack .name => startMember stack t
  | .within stack .colon =>
    match t with
    | .colon => some (.within stack .value)
    | _ => none
  | .within stack .separator => closeTop stack t

def run (r : Reader) : List Token → Option Reader
  | [] => some r
  | t :: ts => (r.step t).bind fun r => run r ts

end Reader

def ofTokens? (ts : List Token) : Option Json :=
  match Reader.run (.within [] .value) ts with
  | some (.done v) => some v
  | _ => none

def readChars (cs : List Char) : Option Json := (tokens cs).bind ofTokens?

def read? (s : String) : Option Json := readChars s.toList

end Muster.Json
