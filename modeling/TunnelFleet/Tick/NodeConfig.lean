import TunnelFleet.Allocation.Basic
import TunnelFleet.Names
import TunnelFleet.Networking.Basic
import TunnelFleet.Object.ConfigMap
import TunnelFleet.Text.Quoted

namespace TunnelFleet

def roleLabels : Dict String :=
  Dict.empty.insert Names.roleLabel Names.roleValue

namespace NodeConfig

def tunnelFile (allocation : Allocation) (networking : Networking) (router : Router) : String :=
  "[Interface] # Our own node IP\n" ++
  "Address = " ++ allocation.nodeIP ++ "/32\n" ++
  "[Peer] # The cluster node/pod IP ranges\n" ++
  "PublicKey = " ++ allocation.routerKey ++ "\n" ++
  "AllowedIPs = " ++ networking.nodeRange ++ "\n" ++
  "AllowedIPs = " ++ networking.podRange ++ "\n" ++
  "Endpoint = " ++ router.endpoint ++ "\n" ++
  "PersistentKeepalive = 25\n"

def ipam (allocation : Allocation) : String :=
  "\x7b\"type\":\"host-local\",\"subnet\":" ++ Text.json allocation.podNet ++
    ",\"routes\":[\x7b\"dst\":\"0.0.0.0/0\"\x7d]\x7d"

/-- The config map a node reads its tunnel from. It belongs to the node. -/
def render (nodeName nodeUid : String) (allocation : Allocation) (networking : Networking)
    (router : Router) : ConfigMap where
  metadata := {
    name := some (Names.nodeConfig nodeName)
    nameSpace := some Names.fleetNamespace
    labels := some roleLabels
    annotations := some ((Dict.empty.insert Names.purposeNote Names.purposeNode).insert
      Names.publicKeyNote allocation.nodeKey)
    owners := some [⟨"v1", none, none, "Node", nodeName, nodeUid⟩] }
  data := some ((Dict.empty.insert Names.tunnelConfigKey
    (tunnelFile allocation networking router)).insert Names.ipamKey (ipam allocation))

/-- The owner of a config map for one node, if it is one. -/
def ownerName? (configMap : ConfigMap) : Option String :=
  if configMap.metadata.note? Names.purposeNote = some Names.purposeNode then
    match configMap.metadata.soleOwner? with
    | some owner => if owner.kind = "Node" then some owner.name else none
    | none => none
  else none

/-- The path of a node's own config map; of several the last counts. -/
def path? (configMaps : List ConfigMap) (nodeName : String) : Option String :=
  (configMaps.filter fun m => ownerName? m = some nodeName).getLast?.map fun m =>
    m.metadata.path

end NodeConfig

end TunnelFleet
