import TunnelFleet.Json.Basic
import TunnelFleet.Object.Timestamp

namespace TunnelFleet

structure Owner where
  apiVersion : String := ""
  blockOwnerDeletion : Option Bool := none
  controller : Option Bool := none
  kind : String := ""
  name : String := ""
  uid : String := ""
deriving DecidableEq

structure FieldManager where
  apiVersion : Option String := none
  fieldsType : Option String := none
  fields : Option Json := none
  manager : Option String := none
  operation : Option String := none
  subresource : Option String := none
  time : Option Timestamp := none
deriving DecidableEq

structure Meta where
  annotations : Option (Dict String) := none
  creationTimestamp : Option Timestamp := none
  deletionGracePeriodSeconds : Option Int := none
  deletionTimestamp : Option Timestamp := none
  finalizers : Option (List String) := none
  generateName : Option String := none
  generation : Option Int := none
  labels : Option (Dict String) := none
  managedFields : Option (List FieldManager) := none
  name : Option String := none
  nameSpace : Option String := none
  owners : Option (List Owner) := none
  resourceVersion : Option String := none
  selfLink : Option String := none
  uid : Option String := none
deriving DecidableEq

instance : Inhabited Meta :=
  ⟨{}⟩

namespace Meta

def path (m : Meta) : String :=
  m.nameSpace.getD "" ++ "/" ++ m.name.getD ""

def note? (m : Meta) (key : String) : Option String :=
  m.annotations.bind fun notes => notes.get? key

def label? (m : Meta) (key : String) : Option String :=
  m.labels.bind fun labels => labels.get? key

def soleOwner? (m : Meta) : Option Owner :=
  match m.owners with
  | some [owner] => some owner
  | _ => none

theorem soleOwner?_eq_some_iff {m : Meta} {owner : Owner} :
    m.soleOwner? = some owner ↔ m.owners = some [owner] := by
  unfold soleOwner?
  constructor
  · intro h
    split at h
    next found howners => rw [howners, Option.some.inj h]
    next => cases h
  · intro h
    rw [h]

def annotate (m : Meta) (notes : Dict String) : Meta :=
  { m with annotations := some ((m.annotations.getD .empty).merge notes) }

end Meta

end TunnelFleet
