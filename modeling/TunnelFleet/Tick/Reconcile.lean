import TunnelFleet.Tick.Approval
import TunnelFleet.Tick.Basic
import TunnelFleet.Tick.Decision
import TunnelFleet.Tick.NodeConfig

namespace TunnelFleet

structure Snapshot where
  nodes : List Node
  configMaps : List ConfigMap
  requests : List SigningRequest
deriving DecidableEq

structure Report where
  nodesSeen : Nat := 0
  tablesBootstrapped : Nat := 0
  annotationsPatched : Nat := 0
  allocationsWritten : Nat := 0
  nodeConfigsCreated : Nat := 0
  requestsApproved : Nat := 0
  nodesExhausted : Nat := 0
deriving DecidableEq

def Report.writes (r : Report) : Nat :=
  r.tablesBootstrapped + r.annotationsPatched + r.allocationsWritten + r.nodeConfigsCreated +
    r.requestsApproved

namespace Reconcile

def emptyTable : ConfigMap where
  metadata := {
    name := some Names.allocations
    nameSpace := some Names.fleetNamespace
    labels := some roleLabels
    annotations := some (Dict.empty.insert Names.purposeNote Names.purposeAllocations) }
  data := some (Dict.empty.insert Names.tableKey Table.emptyText)

structure Setting where
  now : Timestamp
  clusterPath : String
  networking : Option Networking
  configMaps : List ConfigMap
  pending : List SigningRequest

/-- What a tick carries from node to node: the config map of the table as it was last stored, and
the account of the writes. -/
structure Progress where
  table : Option ConfigMap
  report : Report

/-- The settings of the cluster; without their text there are none. -/
def networking? (cluster : ConfigMap) : Except NetworkingError (Option Networking) :=
  match cluster.value? Names.networkingKey with
  | none => .ok none
  | some text => (Networking.ofText text).map some

def withTable (configMap : ConfigMap) (table : Table) : ConfigMap :=
  { configMap with data := some ((configMap.data.getD .empty).insert Names.tableKey table.text) }

/-- A node's addresses: those of the first row with its key, or the next free ones, whose row is
stored. There are none when the pools are exhausted. -/
def allocation (networking : Networking) (nodeName publicKey : String) (tableMap : ConfigMap)
    (report : Report) : Tick (Option (Allocation × ConfigMap × Report)) := do
  let table ← Tick.ofExcept .table (Table.ofText ((tableMap.value? Names.tableKey).getD ""))
  match table.findKey? publicKey with
  | some row => pure (some (row, tableMap, report))
  | none =>
      match Allocation.next networking.routers table with
      | .error .exhausted => pure none
      | .error error => .fail (.search error)
      | .ok free =>
          let row := { free with nodeKey := publicKey, nodeName := nodeName }
          let stored ← Tick.replace (withTable tableMap (table.push row))
          pure (some (row, stored,
            { report with allocationsWritten := report.allocationsWritten + 1 }))

/-- Gives a node its addresses, publishes its config map and tells it where that is. -/
def provision (setting : Setting) (networking : Networking) (nodeName nodeUid publicKey : String)
    (tableMap : ConfigMap) (report : Report) : Tick Progress := do
  match ← allocation networking nodeName publicKey tableMap report with
  | none =>
      pure ⟨some tableMap, { report with nodesExhausted := report.nodesExhausted + 1 }⟩
  | some (row, tableMap, report) =>
      match networking.router? row.routerKey with
      | none => .fail (.unknownRouter row.routerKey)
      | some router =>
          let created ← Tick.create (NodeConfig.render nodeName nodeUid row networking router)
          let report := { report with nodeConfigsCreated := report.nodeConfigsCreated + 1 }
          Tick.annotate nodeName (pathNotes setting.clusterPath (some created.metadata.path))
          pure ⟨some tableMap,
            { report with annotationsPatched := report.annotationsPatched + 1 }⟩

/-- Whether addresses can be handed out: there are settings and a table with some text. -/
def canProvision (setting : Setting) (table : Option ConfigMap) : Bool :=
  setting.networking.isSome &&
    (table.bind fun m => m.value? Names.tableKey).any fun text => text != ""

def serve (setting : Setting) (node : Node) (nodeName nodeUid : String) (progress : Progress) :
    Tick Progress :=
  match node.decide setting.clusterPath (NodeConfig.path? setting.configMaps nodeName)
      (canProvision setting progress.table) with
  | .announce notes => do
      Tick.annotate nodeName notes
      let report := progress.report
      pure { progress with
        report := { report with annotationsPatched := report.annotationsPatched + 1 } }
  | .provision publicKey =>
      match setting.networking, progress.table with
      | some networking, some tableMap =>
          provision setting networking nodeName nodeUid publicKey tableMap progress.report
      | _, _ => pure progress
  | .converged => pure progress

def approveAll (now : Timestamp) : List SigningRequest → Report → Tick Report
  | [], report => pure report
  | request :: rest, report => do
      Tick.approve (request.approved now)
      approveAll now rest { report with requestsApproved := report.requestsApproved + 1 }

/-- One node: what it needs, then the requests it made. A node without a name or an identity is
passed over. -/
def visit (setting : Setting) (progress : Progress) (node : Node) : Tick Progress :=
  match node.metadata.name, node.metadata.uid with
  | some nodeName, some nodeUid => do
      let progress ← serve setting node nodeName nodeUid progress
      let requests := setting.pending.filter fun request => request.isOf nodeName nodeUid
      let report ← approveAll setting.now requests progress.report
      pure { progress with report }
  | _, _ => pure progress

def visitAll (setting : Setting) : List Node → Progress → Tick Progress
  | [], progress => pure progress
  | node :: rest, progress => do
      let progress ← visit setting progress node
      visitAll setting rest progress

/-- The table of a snapshot. A cluster that hands out addresses gets an empty one if it has
none. -/
def tableOf (snapshot : Snapshot) (networking : Option Networking) (report : Report) :
    Tick Progress :=
  match snapshot.configMaps.find? fun m => m.isNamed Names.allocations with
  | some tableMap => pure ⟨some tableMap, report⟩
  | none =>
      if networking.any Networking.isSelfProvision then do
        let created ← Tick.create emptyTable
        pure ⟨some created, { report with tablesBootstrapped := report.tablesBootstrapped + 1 }⟩
      else pure ⟨none, report⟩

end Reconcile

open Reconcile in
/-- One pass over a snapshot, which drives every node towards its config. -/
def reconcile (now : Timestamp) (snapshot : Snapshot) : Tick Report :=
  match snapshot.configMaps.find? fun m => m.isNamed Names.clusterConfig with
  | none => .fail .noClusterConfig
  | some cluster => do
      let networking ← Tick.ofExcept .networking (networking? cluster)
      let progress ← tableOf snapshot networking { nodesSeen := snapshot.nodes.length }
      let setting : Setting := {
        now
        clusterPath := cluster.metadata.path
        networking
        configMaps := snapshot.configMaps
        pending := snapshot.requests.filter SigningRequest.isPending }
      let progress ← visitAll setting snapshot.nodes progress
      pure progress.report

end TunnelFleet
