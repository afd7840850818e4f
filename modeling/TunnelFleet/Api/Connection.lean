import TunnelFleet.Api.Fault
import TunnelFleet.Api.Server
import TunnelFleet.Object.Reader

namespace TunnelFleet.Api

/-- A server as a client meets it, with the requests that were sent to it, newest first, and a fault
that may await one. -/
structure Connection where
  server : Server
  fault : Option Fault := none
  sent : List Request := []

def readReply : (call : Call) → Reads call.Reply
  | .create _ => ConfigMap.read
  | .replace _ => ConfigMap.read
  | .annotate _ _ => fun w => (Node.read w).map fun _ => ()
  | .approve _ => fun w => (SigningRequest.read w).map fun _ => ()

def Server.listing {α : Type} [HasMeta α] (s : Server) (objects : Dict α) : Listing α :=
  ⟨(fleet objects).values, some (toString s.version), none⟩

namespace Connection

variable {α : Type}

/-- Sends a request, which the server serves unless the fault takes it. The response to one that the
fault takes is read as the reply that was asked for. -/
def send (c : Connection) (request : Request) (read : Reads α)
    (serve : Server → Except Refusal α × Server) : Except ClusterFault α × Connection :=
  let sent := request :: c.sent
  let served : Except ClusterFault α × Connection :=
    match serve c.server with
    | (.ok found, server) => (.ok found, ⟨server, c.fault, sent⟩)
    | (.error refusal, server) => (.error (.refused refusal), ⟨server, c.fault, sent⟩)
  match c.fault with
  | some fault =>
      if fault.hits request then (fault.reply read, ⟨c.server, none, sent⟩) else served
  | none => served

def answer : Tick.Answers Connection :=
  fun c call =>
    match request call with
    | .error fault => (.error (.unsendable fault), c)
    | .ok made => c.send made (readReply call) fun server => server.answer made.path call

def record (c : Connection) (event : Event) : Except ClusterFault Unit × Connection :=
  c.send (.event event) Event.readEcho fun server => server.record event

def listNodes (c : Connection) : Except ClusterFault (Listing Node) × Connection :=
  c.send (.list nodesPath) (Listing.read Node.read) fun server =>
    (.ok (server.listing server.nodes), server)

def listConfigMaps (c : Connection) : Except ClusterFault (Listing ConfigMap) × Connection :=
  c.send (.list configMapsPath) (Listing.read ConfigMap.read) fun server =>
    (.ok (server.listing server.configMaps), server)

def listRequests (c : Connection) : Except ClusterFault (Listing SigningRequest) × Connection :=
  c.send (.list requestsPath) (Listing.read SigningRequest.read) fun server =>
    (.ok (server.listing server.requests), server)

/-- Lists everything that belongs to the fleet, of each collection the first page. The first list
that is refused ends this. -/
def list (c : Connection) : Except ClusterFault Snapshot × Connection :=
  match c.listConfigMaps with
  | (.error fault, c) => (.error fault, c)
  | (.ok configMaps, c) =>
      match c.listRequests with
      | (.error fault, c) => (.error fault, c)
      | (.ok requests, c) =>
          match c.listNodes with
          | (.error fault, c) => (.error fault, c)
          | (.ok nodes, c) => (.ok ⟨nodes.objects, configMaps.objects, requests.objects⟩, c)

/-- Takes the pages of a collection as long as another one follows, and tells what they hold
together; nothing if one of them is refused or the last one has no version. Only a fault has pages
that others follow, and it has one at most. -/
def collect (c : Connection) (list : Connection → Except ClusterFault (Listing α) × Connection) :
    Option (List α) × Connection :=
  let whole (before : List α) (page : Listing α) : Option (List α) :=
    if page.version.isSome || page.more.isSome then some (before ++ page.objects) else none
  match list c with
  | (.error _, c) => (none, c)
  | (.ok page, c) =>
      if page.more.isNone then (whole [] page, c)
      else
        match list c with
        | (.error _, c) => (none, c)
        | (.ok next, c) => (whole page.objects next, c)

def renew (c : Connection) (fault : Option Fault) : Connection :=
  ⟨c.server, fault, []⟩

end Connection

end TunnelFleet.Api
