namespace TunnelFleet

structure Allocation where
  nodeKey : String
  routerKey : String
  nodeName : String
  nodeIP : String
  podNet : String
deriving DecidableEq

namespace Allocation

def columns : List String :=
  ["NodeKey", "RouterKey", "NodeName", "NodeIP", "PodNet"]

def fields (a : Allocation) : List String :=
  [a.nodeKey, a.routerKey, a.nodeName, a.nodeIP, a.podNet]

end Allocation

structure Table where
  rows : List Allocation
deriving DecidableEq

namespace Table

def push (t : Table) (row : Allocation) : Table :=
  ⟨t.rows ++ [row]⟩

def findKey? (t : Table) (nodeKey : String) : Option Allocation :=
  t.rows.find? fun row => row.nodeKey == nodeKey

def ofRouter (t : Table) (routerKey : String) : List Allocation :=
  t.rows.filter fun row => row.routerKey == routerKey

end Table

end TunnelFleet
