import Muster.Esi.Model
import Muster.Http
import Muster.Json.Reader
import Muster.Json.Writer

/-! The calls to ESI, what can go wrong in one, and a client that makes them over HTTP. -/

namespace Muster

/-! What can go wrong in a request to ESI. -/

inductive EsiError where
  | http (detail : String)
  | status (uri : String) (code : Http.Status) (body : String)
  | decode (uri detail : String)
deriving Repr, DecidableEq

namespace EsiError

def message : EsiError → String
  | http detail => s!"HTTP request failed: {detail}"
  | status uri code body => s!"{uri} returned {code.text}: {body}"
  | decode uri detail => s!"could not decode {uri}: {detail}"

def chain (e : EsiError) : List String :=
  e.message :: match e with
    | http detail => [detail]
    | status .. => []
    | decode _ detail => [detail]

end EsiError

end Muster

namespace Muster.Esi

inductive Call where
  | character (id : Int)
  | portrait (id : Int)
  | skills (id : Int)
  | corporation (id : Int)
  | corporationIcons (id : Int)
  | alliance (id : Int)
  | allianceIcons (id : Int)
  | names (ids : List Int)
  | ids (names : List String)
deriving Repr, DecidableEq

namespace Call

abbrev Answer : Call → Type
  | character _ => PublicData
  | portrait _ => Portrait
  | skills _ => SkillSheet
  | corporation _ => CorporationData
  | corporationIcons _ => CorporationIcons
  | alliance _ => AllianceData
  | allianceIcons _ => AllianceIcons
  | names _ => List NamedThing
  | ids _ => NamedTypes

def path : Call → String
  | character id => s!"/latest/characters/{id}/"
  | portrait id => s!"/latest/characters/{id}/portrait/"
  | skills id => s!"/latest/characters/{id}/skills/"
  | corporation id => s!"/latest/corporations/{id}/"
  | corporationIcons id => s!"/latest/corporations/{id}/icons/"
  | alliance id => s!"/latest/alliances/{id}/"
  | allianceIcons id => s!"/latest/alliances/{id}/icons/"
  | names _ => "/latest/universe/names/"
  | ids _ => "/latest/universe/ids/"

def argument? : Call → Option Json
  | names asked => some (.list .int asked)
  | ids asked => some (.list .str asked)
  | _ => none

def read? : (c : Call) → Json → Option c.Answer
  | character _ => PublicData.ofJson?
  | portrait _ => Portrait.ofJson?
  | skills _ => SkillSheet.ofJson?
  | corporation _ => CorporationData.ofJson?
  | corporationIcons _ => CorporationIcons.ofJson?
  | alliance _ => AllianceData.ofJson?
  | allianceIcons _ => AllianceIcons.ofJson?
  | names _ => Json.asList? NamedThing.ofJson?
  | ids _ => NamedTypes.ofJson?

def idle? : (c : Call) → Option c.Answer
  | names [] => some []
  | ids [] => some ⟨[]⟩
  | _ => none

def toJson : (c : Call) → c.Answer → Json
  | character _ => PublicData.toJson
  | portrait _ => Portrait.toJson
  | skills _ => SkillSheet.toJson
  | corporation _ => CorporationData.toJson
  | corporationIcons _ => CorporationIcons.toJson
  | alliance _ => AllianceData.toJson
  | allianceIcons _ => AllianceIcons.toJson
  | names _ => Json.list NamedThing.toJson
  | ids _ => NamedTypes.toJson

end Call

/-- What makes calls with an access token, which is empty when there is none. -/
abbrev Api (ω : Type) := String → (c : Call) → Work ω EsiError c.Answer

/-- The request for a call. Tokens go with calls that only read. -/
def request (base token : String) (c : Call) : Http.Request :=
  let url := base ++ c.path
  match c.argument? with
  | some j => ⟨.post, url, Http.userAgent, none, none, some "application/json", j.write⟩
  | none =>
    ⟨.get, url, Http.userAgent, if token.isEmpty then none else some s!"Bearer {token}", none, none, ""⟩

/-- Only status 200 brings an answer. -/
def answer (uri : String) (c : Call) (r : Http.Response) : Except EsiError c.Answer :=
  if r.status.code = 200 then
    match (Json.read? r.body).bind c.read? with
    | some a => .ok a
    | none => .error (.decode uri "unexpected content")
  else .error (.status uri r.status r.body)

def home : String := "https://esi.evetech.net"

def trimBase (base : String) : String :=
  String.ofList (base.toList.reverse.dropWhile (· = '/')).reverse

def client {ω : Type} (send : Http.Transport ω) (base : String) : Api ω := fun token c =>
  match c.idle? with
  | some a => pure a
  | none => do
    let base := trimBase base
    let r ← (send (request base token c)).mapError .http
    Work.ofExcept (answer (base ++ c.path) c r)

end Muster.Esi
