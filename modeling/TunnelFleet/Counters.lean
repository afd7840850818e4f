import TunnelFleet.Decimal.Shortest
import TunnelFleet.Tick.Reconcile

namespace TunnelFleet

/-- What a controller has done since it started. The counters begin again at zero when they are
full. -/
structure Counters where
  ticks : UInt64 := 0
  tickErrors : UInt64 := 0
  nodePatches : UInt64 := 0
  allocations : UInt64 := 0
  nodeConfigs : UInt64 := 0
  approvals : UInt64 := 0
  exhaustedNodes : UInt64 := 0
deriving DecidableEq

namespace Counters

def record (c : Counters) (r : Report) : Counters :=
  { c with
    nodePatches := c.nodePatches + UInt64.ofNat r.annotationsPatched
    allocations := c.allocations + UInt64.ofNat r.allocationsWritten
    nodeConfigs := c.nodeConfigs + UInt64.ofNat r.nodeConfigsCreated
    approvals := c.approvals + UInt64.ofNat r.requestsApproved
    exhaustedNodes := c.exhaustedNodes + UInt64.ofNat r.nodesExhausted }

def countTick (c : Counters) : Counters :=
  { c with ticks := c.ticks + 1 }

def countError (c : Counters) : Counters :=
  { c with tickErrors := c.tickErrors + 1 }

/-- Counts a tick by its result. Of a tick that was ended by a failure only that is counted. -/
def afterTick (c : Counters) : Except Failure Report → Counters
  | .ok report => c.countTick.record report
  | .error _ => c.countTick.countError

def sample (name help : String) (value : UInt64) : String :=
  "# HELP " ++ name ++ " " ++ help ++ "\n# TYPE " ++ name ++ " counter\n" ++ name ++ " " ++
    toString (Decimal.throughFloat value.toNat) ++ "\n"

def exposition (c : Counters) : String :=
  sample "kube_pet_allocations_total" "Address allocations written" c.allocations ++
  sample "kube_pet_csr_approvals_total" "Certificate signing requests approved" c.approvals ++
  sample "kube_pet_exhausted_nodes_total" "Nodes skipped because the address pools are full"
    c.exhaustedNodes ++
  sample "kube_pet_node_configmaps_total" "Per-node ConfigMaps created" c.nodeConfigs ++
  sample "kube_pet_node_patches_total" "Node annotation patches sent" c.nodePatches ++
  sample "kube_pet_reconcile_errors_total" "Reconciliation passes aborted by an error"
    c.tickErrors ++
  sample "kube_pet_reconcile_ticks_total" "Reconciliation passes started" c.ticks

end Counters

end TunnelFleet
