import TunnelFleet.Object.Meta

namespace TunnelFleet

structure ObjectRef where
  apiVersion : Option String := none
  fieldPath : Option String := none
  kind : Option String := none
  name : Option String := none
  nameSpace : Option String := none
  resourceVersion : Option String := none
  uid : Option String := none
deriving DecidableEq

instance : Inhabited ObjectRef :=
  ⟨{}⟩

structure Event where
  metadata : Meta := {}
  involved : ObjectRef := {}
  reason : String
  message : String
  kind : String
  component : String
  host : Option String := none
  first : Timestamp
  last : Timestamp
  count : Nat := 1
deriving DecidableEq

end TunnelFleet
