import TunnelFleet.Json.Basic
import TunnelFleet.Object.ConfigMap
import TunnelFleet.Object.Event
import TunnelFleet.Object.Node
import TunnelFleet.Object.SigningRequest

namespace TunnelFleet

open Json (sparse member maybe texts textDict)

def Timestamp.json (t : Timestamp) : Json :=
  .string t.text

def Owner.json (o : Owner) : Json :=
  sparse [member "apiVersion" (.string o.apiVersion),
    maybe "blockOwnerDeletion" .bool o.blockOwnerDeletion,
    maybe "controller" .bool o.controller, member "kind" (.string o.kind),
    member "name" (.string o.name), member "uid" (.string o.uid)]

def FieldManager.json (m : FieldManager) : Json :=
  sparse [maybe "apiVersion" .string m.apiVersion, maybe "fieldsType" .string m.fieldsType,
    maybe "fieldsV1" id m.fields, maybe "manager" .string m.manager,
    maybe "operation" .string m.operation, maybe "subresource" .string m.subresource,
    maybe "time" Timestamp.json m.time]

def Meta.json (m : Meta) : Json :=
  sparse [maybe "annotations" textDict m.annotations,
    maybe "creationTimestamp" Timestamp.json m.creationTimestamp,
    maybe "deletionGracePeriodSeconds" .whole m.deletionGracePeriodSeconds,
    maybe "deletionTimestamp" Timestamp.json m.deletionTimestamp,
    maybe "finalizers" texts m.finalizers, maybe "generateName" .string m.generateName,
    maybe "generation" .whole m.generation, maybe "labels" textDict m.labels,
    maybe "managedFields" (fun items => .list (items.map FieldManager.json)) m.managedFields,
    maybe "name" .string m.name, maybe "namespace" .string m.nameSpace,
    maybe "ownerReferences" (fun items => .list (items.map Owner.json)) m.owners,
    maybe "resourceVersion" .string m.resourceVersion, maybe "selfLink" .string m.selfLink,
    maybe "uid" .string m.uid]

def ConfigMap.json (m : ConfigMap) : Json :=
  sparse [member "apiVersion" (.string ConfigMap.apiVersion),
    member "kind" (.string ConfigMap.kind),
    member "metadata" m.metadata.json, maybe "data" textDict m.data,
    maybe "binaryData" textDict m.binaryData, maybe "immutable" .bool m.immutableMark]

def Taint.json (t : Taint) : Json :=
  sparse [member "effect" (.string t.effect), member "key" (.string t.key),
    maybe "timeAdded" Timestamp.json t.timeAdded, maybe "value" .string t.value]

def SettingsSource.json (s : SettingsSource) : Json :=
  sparse [member "kubeletConfigKey" (.string s.settingsKey), member "name" (.string s.name),
    member "namespace" (.string s.nameSpace), maybe "resourceVersion" .string s.resourceVersion,
    maybe "uid" .string s.uid]

def NodeSpec.json (s : NodeSpec) : Json :=
  sparse [maybe "configSource"
      (fun source => sparse [maybe "configMap" SettingsSource.json source]) s.settings,
    maybe "externalID" .string s.externalID, maybe "podCIDR" .string s.podCIDR,
    maybe "podCIDRs" texts s.podCIDRs, maybe "providerID" .string s.providerID,
    maybe "taints" (fun items => .list (items.map Taint.json)) s.taints,
    maybe "unschedulable" .bool s.unschedulable]

def Condition.json (c : Condition) : Json :=
  sparse [maybe "lastTransitionTime" Timestamp.json c.lastTransition,
    maybe "lastUpdateTime" Timestamp.json c.lastUpdate, maybe "message" .string c.message,
    maybe "reason" .string c.reason, member "status" (.string c.status),
    member "type" (.string c.kind)]

def SigningStatus.json (s : SigningStatus) : Json :=
  sparse [maybe "certificate" .string s.certificate,
    maybe "conditions" (fun items => .list (items.map Condition.json)) s.conditions]

def SigningSpec.json (s : SigningSpec) : Json :=
  sparse [maybe "expirationSeconds" .whole s.expirationSeconds,
    maybe "extra" (Json.ofDict texts) s.extra, maybe "groups" texts s.groups,
    member "request" (.string s.request), member "signerName" (.string s.signerName),
    maybe "uid" .string s.uid, maybe "usages" texts s.usages,
    maybe "username" .string s.username]

def SigningRequest.json (r : SigningRequest) : Json :=
  sparse [member "apiVersion" (.string SigningRequest.apiVersion),
    member "kind" (.string SigningRequest.kind), member "metadata" r.metadata.json,
    member "spec" r.spec.json, maybe "status" SigningStatus.json r.status]

def ObjectRef.json (r : ObjectRef) : Json :=
  sparse [maybe "apiVersion" .string r.apiVersion, maybe "fieldPath" .string r.fieldPath,
    maybe "kind" .string r.kind, maybe "name" .string r.name,
    maybe "namespace" .string r.nameSpace, maybe "resourceVersion" .string r.resourceVersion,
    maybe "uid" .string r.uid]

def Event.json (e : Event) : Json :=
  sparse [member "apiVersion" (.string "v1"), member "kind" (.string "Event"),
    member "metadata" e.metadata.json, member "involvedObject" e.involved.json,
    member "reason" (.string e.reason), member "message" (.string e.message),
    member "type" (.string e.kind),
    member "source" (sparse [member "component" (.string e.component),
      maybe "host" .string e.host]),
    member "firstTimestamp" e.first.json, member "lastTimestamp" e.last.json,
    member "count" (.nat e.count)]

end TunnelFleet
