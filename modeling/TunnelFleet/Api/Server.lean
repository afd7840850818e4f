import TunnelFleet.Api.Request
import TunnelFleet.Cluster
import TunnelFleet.Object.HasMeta

namespace TunnelFleet.Api

/-- What a cluster stores. Every write raises the version and marks the object with it; names are
unique in a collection. The status of a signing request is kept besides as it was sent. -/
structure Server where
  version : Nat := 100
  nodes : Dict Node := .empty
  configMaps : Dict ConfigMap := .empty
  requests : Dict SigningRequest := .empty
  statuses : Dict Json := .empty
  events : Dict Event := .empty

def fleet {α : Type} [HasMeta α] (objects : Dict α) : Dict α :=
  objects.filter HasMeta.isLabelled

def store {α : Type} [HasMeta α] (objects : Dict α) (version : Nat) (a : α) : Dict α :=
  objects.insert (HasMeta.name a) (HasMeta.stamped version a)

namespace Server

def putNode (s : Server) (node : Node) : Server :=
  { s with version := s.version + 1, nodes := store s.nodes (s.version + 1) node }

def putConfigMap (s : Server) (m : ConfigMap) : Server :=
  { s with version := s.version + 1, configMaps := store s.configMaps (s.version + 1) m }

def putRequest (s : Server) (request : SigningRequest) (status : Option Json) : Server :=
  let name := HasMeta.name request
  { s with
    version := s.version + 1
    requests := store s.requests (s.version + 1) request
    statuses := match status with
      | some status => s.statuses.insert name status
      | none => s.statuses.erase name }

def putEvent (s : Server) (event : Event) : Server :=
  { s with version := s.version + 1, events := store s.events (s.version + 1) event }

/-- A deletion counts as a change also of what is not there. -/
def deleteNode (s : Server) (name : String) : Server :=
  { s with version := s.version + 1, nodes := s.nodes.erase name }

def deleteConfigMap (s : Server) (name : String) : Server :=
  { s with version := s.version + 1, configMaps := s.configMaps.erase name }

def deleteRequest (s : Server) (name : String) : Server :=
  { s with
    version := s.version + 1
    requests := s.requests.erase name
    statuses := s.statuses.erase name }

def subject (name : String) : String :=
  "\"" ++ name ++ "\""

def create (s : Server) (m : ConfigMap) : Except Refusal ConfigMap × Server :=
  let name := HasMeta.name m
  match s.configMaps.get? name with
  | some _ => (.error (.alreadyExists (subject name)), s)
  | none => (.ok (HasMeta.stamped (s.version + 1) m), s.putConfigMap m)

/-- Whether an object may take the place of a stored one: a version that it carries must be the
stored one. -/
def mayReplace {α : Type} [HasMeta α] (old new : α) : Bool :=
  (HasMeta.version new).isNone || HasMeta.version new == HasMeta.version old

def replace (s : Server) (name : String) (m : ConfigMap) : Except Refusal ConfigMap × Server :=
  match s.configMaps.get? name with
  | none => (.error (.notFound (subject name)), s)
  | some old =>
      if mayReplace old m then (.ok (HasMeta.stamped (s.version + 1) m), s.putConfigMap m)
      else (.error (.conflict (subject name)), s)

def annotate (s : Server) (name : String) (notes : Dict String) : Except Refusal Unit × Server :=
  match s.nodes.get? name with
  | none => (.error (.notFound (subject name)), s)
  | some node => (.ok (), s.putNode { node with metadata := node.metadata.annotate notes })

def approve (s : Server) (name : String) (request : SigningRequest) :
    Except Refusal Unit × Server :=
  match s.requests.get? name with
  | none => (.error (.notFound (subject name)), s)
  | some stored =>
      (.ok (), s.putRequest { stored with status := request.status }
        (request.status.map SigningStatus.json))

def replaceRequest (s : Server) (name : String) (request : SigningRequest) :
    Except Refusal Unit × Server :=
  match s.requests.get? name with
  | none => (.error (.notFound (subject name)), s)
  | some old =>
      if mayReplace old request then
        (.ok (), s.putRequest request (request.status.map SigningStatus.json))
      else (.error (.conflict (subject name)), s)

def lastName (path : List Char) : String :=
  String.ofList ((Text.splitAt '/' path).getLastD [])

def approved? (path : List Char) : Option (List Char) :=
  if approvalPart.toList.isSuffixOf path then
    some (path.take (path.length - approvalPart.length))
  else none

def answer (s : Server) (path : String) : (call : Call) → Except Refusal call.Reply × Server
  | .create m => s.create m
  | .replace m => s.replace (lastName path.toList) m
  | .annotate _ notes => s.annotate (lastName path.toList) notes
  | .approve request =>
      match approved? path.toList with
      | some path => s.approve (lastName path) request
      | none => s.replaceRequest (lastName path.toList) request

def record (s : Server) (event : Event) : Except Refusal Unit × Server :=
  match s.events.get? (HasMeta.name event) with
  | some _ => (.error (.alreadyExists (subject (HasMeta.name event))), s)
  | none => (.ok (), s.putEvent event)

end Server

end TunnelFleet.Api
