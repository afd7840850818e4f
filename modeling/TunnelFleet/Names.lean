namespace TunnelFleet.Names

def fleetNamespace : String := "kube-pets"

/-- The label of the fleet's nodes and of every object it creates. -/
def roleLabel : String := "kubernetes.io/role"

def roleValue : String := "pet"

def roleSelector : String := "kubernetes.io/role=pet"

def clusterConfig : String := "kube-pet-config"

def allocations : String := "kube-pet-allocations"

/-- A node carries here the path of the cluster config it was handed. -/
def clusterConfigNote : String := "pet.wg69.net/cluster-configmap"

def nodeConfigNote : String := "pet.wg69.net/node-configmap"

def publicKeyNote : String := "pet.wg69.net/wg-pubkey"

/-- Notes whose key begins so change all the time and never matter. -/
def noisyNotes : String := "virtual-kubelet.io/"

/-- A config map says here what it is for. -/
def purposeNote : String := "pet.wg69.net/purpose"

def purposeCluster : String := "cluster configuration"

def purposeNode : String := "node configuration"

def purposeAllocations : String := "address allocation table"

def networkingKey : String := "Networking"

def tableKey : String := "table"

def tunnelConfigKey : String := "WireguardConfig"

def ipamKey : String := "IpamJson"

def nodeConfigStem : String := "node-"

def eventComponent : String := "kube-pet-router-controller"

/-- The account a node's request for a serving certificate must come from. -/
def serviceAccount (node : String) : String :=
  "system:serviceaccount:kube-system:node." ++ node

def nodeConfig (node : String) : String :=
  nodeConfigStem ++ node

def tunnelUnit (interface : String) : String :=
  "wg-quick@" ++ interface ++ ".service"

end TunnelFleet.Names
