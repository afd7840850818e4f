import TunnelFleet.Allocation.Text
import TunnelFleet.Names
import TunnelFleet.Object.ConfigMap
import TunnelFleet.Object.Event
import TunnelFleet.Text.Basic

namespace TunnelFleet

/-- The peers a router is to carry, each as its part of the tunnel file, and the table they come
from. -/
structure PeerSnapshot where
  source : ObjectRef
  blocks : List String
deriving DecidableEq

def Allocation.peerBlock (row : Allocation) : String :=
  "[Peer] # " ++ row.nodeName ++ "\nPublicKey = " ++ row.nodeKey ++ "\nAllowedIPs = " ++
    row.nodeIP ++ "/32 # node\nAllowedIPs = " ++ row.podNet ++ " # pods\n"

def ConfigMap.tableRef (m : ConfigMap) : ObjectRef where
  apiVersion := some "v1"
  fieldPath := some ("data." ++ Names.tableKey)
  kind := some "ConfigMap"
  name := m.metadata.name
  nameSpace := m.metadata.nameSpace
  resourceVersion := m.metadata.resourceVersion
  uid := m.metadata.uid

namespace PeerSnapshot

def table? (configMaps : List ConfigMap) : Option (ConfigMap × String) := do
  let m ← configMaps.find? fun m =>
    m.metadata.note? Names.purposeNote == some Names.purposeAllocations
  let text ← m.value? Names.tableKey
  some (m, text)

def ofConfigMaps (configMaps : List ConfigMap) (routerKey : String) :
    Except TableError (Option PeerSnapshot) :=
  match table? configMaps with
  | none => .ok none
  | some (m, text) =>
      (Table.ofText text).map fun table =>
        some ⟨m.tableRef, (table.ofRouter routerKey).map Allocation.peerBlock⟩

end PeerSnapshot

/-- What a tunnel file holds before its first peer. -/
def tunnelHeader (installed : String) : String :=
  String.ofList (Text.before "\n[Peer]".toList installed.toList)

/-- A tunnel file with the same header and these peers. -/
def assemble (installed : String) (blocks : List String) : String :=
  tunnelHeader installed ++ String.join (blocks.map fun block => "\n" ++ block)

/-- The note about a changed tunnel. A restart that ended badly is a warning. -/
def PeerSnapshot.restartEvent (snapshot : PeerSnapshot) (exitCode : Int) (host : Option String)
    (now : Timestamp) (suffix : String) : Event where
  metadata := {
    name := some (Names.eventComponent ++ "." ++ suffix)
    nameSpace := some Names.fleetNamespace }
  involved := snapshot.source
  reason := "Restarted"
  message := "Reconfigured WireGuard interface with " ++ toString snapshot.blocks.length ++
    " peers. Exit code " ++ toString exitCode
  kind := if exitCode = 0 then "Normal" else "Warning"
  component := Names.eventComponent
  host := host
  first := now
  last := now

end TunnelFleet
