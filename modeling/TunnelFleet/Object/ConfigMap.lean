import TunnelFleet.Object.Meta

namespace TunnelFleet

/-- A named set of texts. Binary data is kept in its written base64 form. -/
structure ConfigMap where
  metadata : Meta := {}
  data : Option (Dict String) := none
  binaryData : Option (Dict String) := none
  immutableMark : Option Bool := none
deriving DecidableEq

instance : Inhabited ConfigMap :=
  ⟨{}⟩

namespace ConfigMap

def apiVersion : String :=
  "v1"

def kind : String :=
  "ConfigMap"

def value? (m : ConfigMap) (key : String) : Option String :=
  m.data.bind fun data => data.get? key

def isNamed (m : ConfigMap) (name : String) : Bool :=
  m.metadata.name == some name

end ConfigMap

end TunnelFleet
