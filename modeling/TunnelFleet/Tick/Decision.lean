import TunnelFleet.Names
import TunnelFleet.Object.Node

namespace TunnelFleet

/-- What a node needs: to be told the current paths, addresses for the key it published, or
nothing. -/
inductive Decision where
  | announce (notes : Dict String)
  | provision (publicKey : String)
  | converged
deriving DecidableEq

def pathNotes (clusterPath : String) (nodePath : Option String) : Dict String :=
  let notes := Dict.empty.insert Names.clusterConfigNote clusterPath
  match nodePath with
  | none => notes
  | some path => notes.insert Names.nodeConfigNote path

namespace Node

/-- Whether the node carries other paths than the current ones. A node without a config of its own
may carry any path for it. -/
def isStale (node : Node) (clusterPath : String) (nodePath : Option String) : Bool :=
  node.metadata.note? Names.clusterConfigNote != some clusterPath ||
    nodePath.any fun path => node.metadata.note? Names.nodeConfigNote != some path

/-- What a node needs, told by its annotations and the current paths alone. `canProvision` is
whether there are both a table and networking settings. -/
def decide (node : Node) (clusterPath : String) (nodePath : Option String)
    (canProvision : Bool) : Decision :=
  if node.isStale clusterPath nodePath then .announce (pathNotes clusterPath nodePath)
  else
    match node.metadata.note? Names.publicKeyNote with
    | some key =>
        if nodePath.isNone && key != "" && canProvision then .provision key else .converged
    | none => .converged

end Node

end TunnelFleet
