import TunnelFleet.Api.Connection
import TunnelFleet.Watch.Feed

namespace TunnelFleet

open Api (Connection Request Server)

/-- The watched config maps of a cluster: all of them or those of the fleet. The watch ends when
there is something to publish and no reader is left, or when an object cannot be followed. -/
structure Reflection where
  connection : Connection
  fleetOnly : Bool
  feed : Feed ConfigMap := {}
  hasReader : Bool := true
  isWatching : Bool := true

namespace Reflection

def visible (r : Reflection) (server : Server) : Dict ConfigMap :=
  if r.fleetOnly then Api.fleet server.configMaps else server.configMaps

def request (r : Reflection) : Request :=
  let listing := Request.list Api.configMapsPath
  if r.fleetOnly then listing else { listing with query := [] }

def take (r : Reflection) (events : List (WatchEvent ConfigMap)) : Reflection :=
  if !r.isWatching then r
  else
    let feed := r.feed.takeAll 0 events
    let news := feed.published.published.length != r.feed.published.published.length
    if r.hasReader then { r with feed, isWatching := !feed.closed }
    else { r with isWatching := !feed.closed && !news }

def page (r : Reflection) (c : Connection) :
    Except ClusterFault (Listing ConfigMap) × Connection :=
  c.send r.request (Listing.read ConfigMap.read) fun server =>
    (.ok ⟨(r.visible server).values, some (toString server.version), none⟩, server)

def list (r : Reflection) : Reflection :=
  if !r.isWatching then r
  else
    match r.connection.collect r.page with
    | (some objects, connection) =>
        { r with connection }.take (WatchEvent.ofListing objects)
    | (none, connection) =>
        let r := { r with connection }.take [.listing, .failed]
        r.take (WatchEvent.ofListing (r.visible connection.server).values)

def start (connection : Connection) (fleetOnly : Bool) : Reflection :=
  Reflection.list { connection, fleetOnly }

def change (r : Reflection) (f : Server → Server) : Reflection :=
  let server := f r.connection.server
  let changes := WatchEvent.changes (r.visible r.connection.server) (r.visible server)
  { r with connection := { r.connection with server } }.take changes

/-- The watch reports a failure. Of one that says that the past is gone the watch begins again. -/
def interrupt (r : Reflection) (code : Nat) : Reflection :=
  let r := r.take [.failed]
  if code = 410 then r.list else r

def dropReader (r : Reflection) : Reflection :=
  { r with hasReader := false }

def takeOut (r : Reflection) : List (List ConfigMap) × Reflection :=
  (r.feed.published.published.map (·.2), { r with feed := { r.feed with published := [] } })

end Reflection

end TunnelFleet
