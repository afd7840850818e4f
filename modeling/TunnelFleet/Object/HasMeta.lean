import TunnelFleet.Names
import TunnelFleet.Object.ConfigMap
import TunnelFleet.Object.Event
import TunnelFleet.Object.Node
import TunnelFleet.Object.SigningRequest

namespace TunnelFleet

/-- A kind of objects: each carries metadata, which can be changed by itself. -/
class HasMeta (α : Type) where
  metaOf : α → Meta
  withMeta : α → Meta → α

instance : HasMeta Node where
  metaOf := Node.metadata
  withMeta node m := { node with metadata := m }

instance : HasMeta ConfigMap where
  metaOf := ConfigMap.metadata
  withMeta configMap m := { configMap with metadata := m }

instance : HasMeta SigningRequest where
  metaOf := SigningRequest.metadata
  withMeta request m := { request with metadata := m }

instance : HasMeta Event where
  metaOf := Event.metadata
  withMeta event m := { event with metadata := m }

namespace HasMeta

variable {α : Type} [HasMeta α]

def name (a : α) : String :=
  (metaOf a).name.getD ""

/-- What tells an object from the others of its kind: its name and, if it has one, its namespace.
Two objects with the same name and namespace are two states of one. -/
def identity? (a : α) : Option String :=
  (metaOf a).name.map fun name =>
    match (metaOf a).nameSpace with
    | none => name
    | some space => name ++ String.singleton (Char.ofNat 0) ++ space

def version (a : α) : Option String :=
  (metaOf a).resourceVersion

def stamped (version : Nat) (a : α) : α :=
  withMeta a { metaOf a with resourceVersion := some (toString version) }

def isLabelled (a : α) : Bool :=
  (metaOf a).label? Names.roleLabel == some Names.roleValue

end HasMeta

end TunnelFleet
