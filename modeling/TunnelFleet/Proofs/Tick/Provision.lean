import TunnelFleet.Proofs.Allocation.Search
import TunnelFleet.Proofs.Tick.Walk

namespace TunnelFleet.Reconcile

/-- The last calls for a node that has a row: its config map, and word of where that is. -/
def publish (setting : Setting) (networking : Networking) (name uid : String) (row : Allocation)
    (router : Router) (m : ConfigMap) (report : Report) : Tick Progress := do
  let created ← Tick.create (NodeConfig.render name uid row networking router)
  Tick.annotate name (pathNotes setting.clusterPath (some created.metadata.path))
  pure ⟨some m, { report with
    nodeConfigsCreated := report.nodeConfigsCreated + 1
    annotationsPatched := report.annotationsPatched + 1 }⟩

/-- All that giving a node its addresses can come to, with the reasons for it. -/
inductive Provisions (setting : Setting) (networking : Networking) (name uid key : String)
    (m : ConfigMap) (report : Report) : Tick Progress → Prop
  | unread {e : TableError} (htable : m.table = .error e) :
      Provisions setting networking name uid key m report (.fail (.table e))
  | unknown {table : Table} {row : Allocation} (htable : m.table = .ok table)
      (hrow : table.findKey? key = some row) (hrouter : networking.router? row.routerKey = none) :
      Provisions setting networking name uid key m report (.fail (.unknownRouter row.routerKey))
  | reused {table : Table} {row : Allocation} {router : Router} (htable : m.table = .ok table)
      (hrow : table.findKey? key = some row)
      (hrouter : networking.router? row.routerKey = some router) :
      Provisions setting networking name uid key m report
        (publish setting networking name uid row router m report)
  | unsearched {table : Table} {role : BlockRole} {text : String} {cause : BlockError}
      (htable : m.table = .ok table) (hrow : table.findKey? key = none)
      (hnext : Allocation.next networking.routers table = .error (.badBlock role text cause)) :
      Provisions setting networking name uid key m report (.fail (.search (.badBlock role text cause)))
  | exhausted {table : Table} (htable : m.table = .ok table) (hrow : table.findKey? key = none)
      (hnext : Allocation.next networking.routers table = .error .exhausted) :
      Provisions setting networking name uid key m report
        (.done ⟨some m, { report with nodesExhausted := report.nodesExhausted + 1 }⟩)
  | allocated {table : Table} {found row : Allocation} {router : Router}
      (htable : m.table = .ok table) (hunknown : table.findKey? key = none)
      (hnext : Allocation.next networking.routers table = .ok found)
      (hrow : row = { found with nodeKey := key, nodeName := name })
      (hrouter : networking.router? found.routerKey = some router) :
      Provisions setting networking name uid key m report
        (.ask (.replace (withTable m (table.push row))) fun stored =>
          publish setting networking name uid row router stored
            { report with allocationsWritten := report.allocationsWritten + 1 })

theorem provisions (setting : Setting) (networking : Networking) (name uid key : String)
    (m : ConfigMap) (report : Report) : Provisions setting networking name uid key m report
      (provision setting networking name uid key m report) := by
  have hread : Table.ofText ((m.value? Names.tableKey).getD "") = m.table := rfl
  rw [provision, allocation, hread]
  cases htable : m.table with
  | error e => exact .unread htable
  | ok table =>
    simp only [Tick.ofExcept, Tick.done_bind]
    cases hrow : table.findKey? key with
    | some row =>
      simp only [pure_bind]
      cases hrouter : networking.router? row.routerKey with
      | none => exact .unknown htable hrow hrouter
      | some router => exact .reused htable hrow hrouter
    | none =>
      dsimp only
      cases hnext : Allocation.next networking.routers table with
      | error error =>
        cases error with
        | exhausted => exact .exhausted htable hrow hnext
        | badBlock => exact .unsearched htable hrow hnext
      | ok found =>
        obtain ⟨router, hrouter⟩ := Allocation.router?_of_next hnext
        simp only [bind_assoc, pure_bind, hrouter]
        exact .allocated htable hrow hnext rfl hrouter

end TunnelFleet.Reconcile
