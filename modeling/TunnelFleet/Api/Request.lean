import TunnelFleet.Object.Writer
import TunnelFleet.Text.Basic
import TunnelFleet.Tick.Basic

namespace TunnelFleet.Api

structure Request where
  method : String
  path : String
  query : List String
  contentType : Option String
  body : Option Json
deriving DecidableEq

def nodesPath : String :=
  "/api/v1/nodes"

def configMapsPath : String :=
  "/api/v1/namespaces/" ++ Names.fleetNamespace ++ "/configmaps"

def requestsPath : String :=
  "/apis/certificates.k8s.io/v1/certificatesigningrequests"

def eventsPath : String :=
  "/api/v1/namespaces/" ++ Names.fleetNamespace ++ "/events"

/-- A byte of a query value: letters, digits and a few marks stand for themselves, and a blank is a
plus sign. -/
def queryByte (b : UInt8) : String :=
  let c := Char.ofNat b.toNat
  if c.isAlphanum || c == '*' || c == '-' || c == '.' || c == '_' then String.singleton c
  else if c == ' ' then "+"
  else
    let digits := Nat.toDigits 16 b.toNat
    "%" ++ String.ofList (List.replicate (2 - digits.length) '0' ++ digits.map Char.toUpper)

def queryValue (s : String) : String :=
  String.join (s.toUTF8.toList.map queryByte)

def isPathChar (c : Char) : Bool :=
  let n := c.toNat
  n == 0x21 || n == 0x22 || (0x24 ≤ n && n ≤ 0x3B) || n == 0x3D || (0x40 ≤ n && n != 0x60)

def isQueryChar (c : Char) : Bool :=
  let n := c.toNat
  n == 0x21 || (0x24 ≤ n && n ≤ 0x3B) || n == 0x3D || 0x3F ≤ n

def queryParts (query : List Char) : List String :=
  let parts := ((Text.splitAt '&' query).map String.ofList).filter fun part => part != ""
  parts.mergeSort fun a b => a ≤ b

/-- The path and the query of a request target. What follows a number sign is not sent. -/
def target (s : String) : Except RequestFault (String × List String) :=
  let path := s.toList.takeWhile fun c => c != '?' && c != '#'
  if !path.all isPathChar then .error .badCharacter
  else
    match s.toList.drop path.length with
    | '?' :: rest =>
        let query := rest.takeWhile fun c => c != '#'
        if query.all isQueryChar then .ok (String.ofList path, queryParts query)
        else .error .badCharacter
    | _ => .ok (String.ofList path, [])

namespace Request

def list (path : String) : Request :=
  ⟨"GET", path, ["labelSelector=" ++ queryValue Names.roleSelector], none, none⟩

def post (path : String) (body : Json) : Request :=
  ⟨"POST", path, [], some "application/json", some body⟩

/-- Sends something to an object, or to a part of it. The name stands in the target as it is. -/
def named (method collection name part contentType : String) (body : Json) :
    Except RequestFault Request :=
  if name = "" then .error .noName
  else
    (target (collection ++ "/" ++ name ++ part ++ "?")).map fun (path, query) =>
      ⟨method, path, query, some contentType, some body⟩

def annotate (node : String) (notes : Dict String) : Except RequestFault Request :=
  named "PATCH" nodesPath node "" "application/strategic-merge-patch+json"
    (.object [("metadata", .object [("annotations", Json.textDict notes)])])

def event (e : Event) : Request :=
  post eventsPath e.json

def isRead (r : Request) : Bool :=
  r.method == "GET"

end Request

def approvalPart : String :=
  "/approval"

def request : Call → Except RequestFault Request
  | .create m => .ok (.post configMapsPath m.json)
  | .replace m =>
      Request.named "PUT" configMapsPath (m.metadata.name.getD "") "" "application/json" m.json
  | .annotate node notes => Request.annotate node notes
  | .approve r =>
      Request.named "PUT" requestsPath (r.metadata.name.getD "") approvalPart "application/json"
        r.json

end TunnelFleet.Api
