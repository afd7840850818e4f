import TunnelFleet.Json.Reader
import TunnelFleet.Object.ConfigMap
import TunnelFleet.Object.Event
import TunnelFleet.Object.Node
import TunnelFleet.Object.SigningRequest

namespace TunnelFleet

open Json (Fault Members Written)

abbrev Reads (α : Type) :=
  Written → Except Fault α

def Timestamp.read : Reads Timestamp
  | .string (.ok s) stop =>
      match Timestamp.ofText? s with
      | some instant => .ok instant
      | none => .error ⟨.badInstant, stop⟩
  | w => .error (w.mismatch "an RFC 3339 formatted date and time string")

def Owner.read : Reads Owner :=
  Written.record "OwnerReference" fun ms => do
    return {
      apiVersion := ← ms.orEmpty "apiVersion"
      blockOwnerDeletion := ← ms.optional "blockOwnerDeletion" Written.boolean
      controller := ← ms.optional "controller" Written.boolean
      kind := ← ms.orEmpty "kind"
      name := ← ms.orEmpty "name"
      uid := ← ms.orEmpty "uid" }

def FieldManager.read : Reads FieldManager :=
  Written.record "ManagedFieldsEntry" fun ms => do
    return {
      apiVersion := ← ms.optional "apiVersion" Written.text
      fieldsType := ← ms.optional "fieldsType" Written.text
      fields := ← ms.optional "fieldsV1" Written.value
      manager := ← ms.optional "manager" Written.text
      operation := ← ms.optional "operation" Written.text
      subresource := ← ms.optional "subresource" Written.text
      time := ← ms.optional "time" Timestamp.read }

def Meta.read : Reads Meta :=
  Written.record "ObjectMeta" fun ms => do
    return {
      annotations := ← ms.optional "annotations" (Written.dictOf Written.text)
      creationTimestamp := ← ms.optional "creationTimestamp" Timestamp.read
      deletionGracePeriodSeconds :=
        ← ms.optional "deletionGracePeriodSeconds" (Written.signed 64)
      deletionTimestamp := ← ms.optional "deletionTimestamp" Timestamp.read
      finalizers := ← ms.optional "finalizers" (Written.listOf Written.text)
      generateName := ← ms.optional "generateName" Written.text
      generation := ← ms.optional "generation" (Written.signed 64)
      labels := ← ms.optional "labels" (Written.dictOf Written.text)
      managedFields := ← ms.optional "managedFields" (Written.listOf FieldManager.read)
      name := ← ms.optional "name" Written.text
      nameSpace := ← ms.optional "namespace" Written.text
      owners := ← ms.optional "ownerReferences" (Written.listOf Owner.read)
      resourceVersion := ← ms.optional "resourceVersion" Written.text
      selfLink := ← ms.optional "selfLink" Written.text
      uid := ← ms.optional "uid" Written.text }

/-- An object of the cluster, which may say what it is. What it says must be true. -/
def resource {α : Type} (apiVersion kind : String) (read : Members → Except Fault α) : Reads α :=
  Written.record kind fun ms => do
    ms.declares "apiVersion" apiVersion
    ms.declares "kind" kind
    read ms

def metadataOf (ms : Members) : Except Fault Meta := do
  return (← ms.optional "metadata" Meta.read).getD {}

def ConfigMap.read : Reads ConfigMap :=
  resource ConfigMap.apiVersion ConfigMap.kind fun ms => do
    return {
      metadata := ← metadataOf ms
      data := ← ms.optional "data" (Written.dictOf Written.text)
      binaryData := ← ms.optional "binaryData" (Written.dictOf Written.text)
      immutableMark := ← ms.optional "immutable" Written.boolean }

def Taint.read : Reads Taint :=
  Written.record "Taint" fun ms => do
    return {
      effect := ← ms.orEmpty "effect"
      key := ← ms.orEmpty "key"
      timeAdded := ← ms.optional "timeAdded" Timestamp.read
      value := ← ms.optional "value" Written.text }

def SettingsSource.read : Reads SettingsSource :=
  Written.record "ConfigMapNodeConfigSource" fun ms => do
    return {
      settingsKey := ← ms.orEmpty "kubeletConfigKey"
      name := ← ms.orEmpty "name"
      nameSpace := ← ms.orEmpty "namespace"
      resourceVersion := ← ms.optional "resourceVersion" Written.text
      uid := ← ms.optional "uid" Written.text }

def NodeSpec.read : Reads NodeSpec :=
  Written.record "NodeSpec" fun ms => do
    return {
      settings := ← ms.optional "configSource" (Written.record "NodeConfigSource" fun source =>
        source.optional "configMap" SettingsSource.read)
      externalID := ← ms.optional "externalID" Written.text
      podCIDR := ← ms.optional "podCIDR" Written.text
      podCIDRs := ← ms.optional "podCIDRs" (Written.listOf Written.text)
      providerID := ← ms.optional "providerID" Written.text
      taints := ← ms.optional "taints" (Written.listOf Taint.read)
      unschedulable := ← ms.optional "unschedulable" Written.boolean }

def Node.readStatus : Reads Unit :=
  Written.record "NodeStatus" fun _ => .ok ()

def Node.read : Reads Node :=
  resource "v1" "Node" fun ms => do
    ms.check "status" Node.readStatus
    return { metadata := ← metadataOf ms, spec := ← ms.optional "spec" NodeSpec.read }

def Condition.read : Reads Condition :=
  Written.record "CertificateSigningRequestCondition" fun ms => do
    return {
      lastTransition := ← ms.optional "lastTransitionTime" Timestamp.read
      lastUpdate := ← ms.optional "lastUpdateTime" Timestamp.read
      message := ← ms.optional "message" Written.text
      reason := ← ms.optional "reason" Written.text
      status := ← ms.orEmpty "status"
      kind := ← ms.orEmpty "type" }

def SigningStatus.read : Reads SigningStatus :=
  Written.record "CertificateSigningRequestStatus" fun ms => do
    return {
      certificate := ← ms.optional "certificate" Written.text
      conditions := ← ms.optional "conditions" (Written.listOf Condition.read) }

def SigningSpec.read : Reads SigningSpec :=
  Written.record "CertificateSigningRequestSpec" fun ms => do
    return {
      expirationSeconds := ← ms.optional "expirationSeconds" (Written.signed 32)
      extra := ← ms.optional "extra" (Written.dictOf (Written.listOf Written.text))
      groups := ← ms.optional "groups" (Written.listOf Written.text)
      request := ← ms.orEmpty "request"
      signerName := ← ms.orEmpty "signerName"
      uid := ← ms.optional "uid" Written.text
      usages := ← ms.optional "usages" (Written.listOf Written.text)
      username := ← ms.optional "username" Written.text }

def SigningRequest.read : Reads SigningRequest :=
  resource SigningRequest.apiVersion SigningRequest.kind fun ms => do
    return {
      metadata := ← metadataOf ms
      spec := (← ms.optional "spec" SigningSpec.read).getD {}
      status := ← ms.optional "status" SigningStatus.read }

def ObjectRef.read : Reads ObjectRef :=
  Written.record "ObjectReference" fun ms => do
    return {
      apiVersion := ← ms.optional "apiVersion" Written.text
      fieldPath := ← ms.optional "fieldPath" Written.text
      kind := ← ms.optional "kind" Written.text
      name := ← ms.optional "name" Written.text
      nameSpace := ← ms.optional "namespace" Written.text
      resourceVersion := ← ms.optional "resourceVersion" Written.text
      uid := ← ms.optional "uid" Written.text }

def Event.readEcho : Reads Unit :=
  resource "v1" "Event" fun ms => do
    ["action", "message", "reason", "reportingComponent", "reportingInstance", "type"].forM
      fun key => ms.check key Written.text
    ["eventTime", "firstTimestamp", "lastTimestamp"].forM fun key => ms.check key Timestamp.read
    ["involvedObject", "related"].forM fun key => ms.check key ObjectRef.read
    ms.check "count" (Written.signed 32)
    ms.check "metadata" Meta.read
    ms.check "series" (Written.record "EventSeries" fun series => do
      series.check "count" (Written.signed 32)
      series.check "lastObservedTime" Timestamp.read)
    ms.check "source" (Written.record "EventSource" fun source => do
      source.check "component" Written.text
      source.check "host" Written.text)

/-- What a listing brings: objects, the version of the collection, and the mark of a page that
follows. An empty version or mark counts for none. -/
structure Listing (α : Type) where
  objects : List α
  version : Option String := none
  more : Option String := none

namespace Listing

variable {α : Type}

def readMeta : Reads (Option String × Option String) :=
  Written.record "ListMeta" fun ms => do
    let more ← ms.optional "continue" Written.text
    let _ ← ms.optional "remainingItemCount" (Written.signed 64)
    let version ← ms.optional "resourceVersion" Written.text
    let _ ← ms.optional "selfLink" Written.text
    return (version.filter (· != ""), more.filter (· != ""))

def readMembers (read : Reads α) (ms : Members) : Except Fault (Option (Listing α)) := do
  let (version, more) ← match ms.find? "metadata" with
    | some (w, _) => readMeta w
    | none => .ok (none, none)
  match ms.find? "items" with
  | some (w, _) =>
      let objects ← Written.orNull (Written.listOf read) w
      return some { objects := objects.getD [], version, more }
  | none => return none

def readOther (name : String) (w : Written) : Except Fault Unit :=
  if name = "metadata" ∨ name = "items" then .ok () else w.value.map fun _ => ()

/-- A listing must have its items, though they may be null. -/
def read (read : Reads α) : Reads (Listing α)
  | .object _ members stop => do
      let found ← Written.inTurn (readMembers read) readOther [] members
      let stop ← stop
      match found with
      | some listing => return listing
      | none => .error ⟨.missing "items", stop⟩
  | w => .error (w.mismatch "struct ObjectList")

end Listing

end TunnelFleet
