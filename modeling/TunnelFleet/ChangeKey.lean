import TunnelFleet.Names
import TunnelFleet.Object.Node

namespace TunnelFleet

structure NodeKey where
  name : Option String
  notes : List (String × String)
  spec : Option NodeSpec
deriving DecidableEq

namespace NodeKey

def isNoisy (key : String) : Bool :=
  Names.noisyNotes.toList.isPrefixOf key.toList

def quietNotes (m : Meta) : List (String × String) :=
  match m.annotations with
  | none => []
  | some notes => (notes.filterKeys fun key => !isNoisy key).entries

def ofNode (node : Node) : NodeKey :=
  ⟨node.metadata.name, quietNotes node.metadata, node.spec⟩

/-- Whether a key may stand before another: by name, an absent name first. -/
def le (a b : NodeKey) : Bool :=
  match a.name, b.name with
  | none, _ => true
  | some _, none => false
  | some x, some y => !decide (y < x)

end NodeKey

/-- The keys of nodes by name. Nodes of one name keep their order. -/
def changeKey (nodes : List Node) : List NodeKey :=
  (nodes.map NodeKey.ofNode).mergeSort NodeKey.le

end TunnelFleet
