import TunnelFleet.Proofs.Tick.Heeds
import TunnelFleet.Tick.Reconcile

namespace TunnelFleet

def Snapshot.tableMap? (snapshot : Snapshot) : Option ConfigMap :=
  snapshot.configMaps.find? fun m => m.isNamed Names.allocations

theorem Node.of_decide_provides {node : Node} {clusterPath key : String} {nodePath : Option String}
    {canProvision : Bool} (h : node.decide clusterPath nodePath canProvision = .provision key) :
    node.metadata.note? Names.publicKeyNote = some key ∧ key ≠ "" ∧ canProvision = true := by
  unfold decide at h
  split at h
  next => cases h
  next =>
    split at h
    next found hfound =>
      split at h
      next hneeds =>
        obtain rfl := Decision.provision.inj h
        obtain ⟨hkey, hcan⟩ := Bool.and_eq_true_iff.mp hneeds
        exact ⟨hfound, by simpa using (Bool.and_eq_true_iff.mp hkey).2, hcan⟩
      next => cases h
    next => cases h

namespace Reconcile

/-- A row that a tick may put behind the others of a table: the next free addresses for a key without
a row, which one of its nodes has published. -/
structure IsAddition (setting : Setting) (nodes : List Node) (m : ConfigMap) (table : Table)
    (row : Allocation) : Prop where
  hasText : ∃ text, m.value? Names.tableKey = some text ∧ text ≠ ""
  read : m.table = .ok table
  unknown : table.findKey? row.nodeKey = none
  free : ∃ networking found, setting.networking = some networking ∧
    Allocation.next networking.routers table = .ok found ∧
    row = { found with nodeKey := row.nodeKey, nodeName := row.nodeName }
  node : ∃ node ∈ nodes, node.metadata.name = some row.nodeName ∧
    node.metadata.note? Names.publicKeyNote = some row.nodeKey
  keyed : row.nodeKey ≠ ""

theorem allocation_of_exhausted {networking : Networking} {m : ConfigMap} {table : Table}
    {key : String} (htable : m.table = .ok table) (hrow : table.findKey? key = none)
    (hnext : Allocation.next networking.routers table = .error .exhausted) (nodeName : String)
    (report : Report) : allocation networking nodeName key m report = .done none := by
  have hread : Table.ofText ((m.value? Names.tableKey).getD "") = .ok table := htable
  rw [allocation, hread, Tick.ofExcept, Tick.done_bind, hrow]
  dsimp only
  rw [hnext]
  rfl

variable {W : Type} {moves : Tick.Moves W} {may : W → Call → Prop} {w : W}
  {known : W → Progress → Prop} {granted : W → Allocation → Prop}
  {setting : Setting} {nodes : List Node} {node : Node} {nodeName nodeUid publicKey : String}
  {networking : Networking} {tableMap : ConfigMap} {report : Report} {progress : Progress}

/-- What has to hold of each write for it to be allowed in a tick, and for the tick to keep what it
knows of its progress. What is granted is a row that a node's config map may be made from. -/
structure Rules (moves : Tick.Moves W) (may : W → Call → Prop) (known : W → Progress → Prop)
    (granted : W → Allocation → Prop) (setting : Setting) (nodes : List Node) : Prop where
  found {w : W} {m : ConfigMap} {table : Table} {row : Allocation} {report : Report}
    (hknown : known w ⟨some m, report⟩) (ht : m.table = .ok table)
    (hrow : table.findKey? row.nodeKey = some row) : granted w row
  extend {w : W} {m : ConfigMap} {table : Table} {row : Allocation} {report : Report}
    (hknown : known w ⟨some m, report⟩) (hrow : IsAddition setting nodes m table row) :
    may w (.replace (withTable m (table.push row))) ∧ ∀ stored after,
      moves w (.replace (withTable m (table.push row))) stored after →
      granted after row ∧ known after ⟨some stored,
        { report with allocationsWritten := report.allocationsWritten + 1 }⟩
  publish {w : W} {progress : Progress} {node : Node} {name uid : String} {row : Allocation}
    {networking : Networking} {router : Router}
    (hknown : known w progress) (hrow : granted w row) (hnode : node ∈ nodes)
    (hname : node.metadata.name = some name) (huid : node.metadata.uid = some uid)
    (hnetworking : setting.networking = some networking)
    (hrouter : networking.router? row.routerKey = some router) :
    may w (.create (NodeConfig.render name uid row networking router)) ∧ ∀ created after,
      moves w (.create (NodeConfig.render name uid row networking router)) created after →
      known after ⟨progress.table,
        { progress.report with nodeConfigsCreated := progress.report.nodeConfigsCreated + 1 }⟩
  annotate {w : W} {progress : Progress} {node : Node} {name : String} (notes : Dict String)
    (hknown : known w progress) (hnode : node ∈ nodes) (hname : node.metadata.name = some name) :
    may w (.annotate name notes) ∧ ∀ reply after, moves w (.annotate name notes) reply after →
      known after ⟨progress.table,
        { progress.report with annotationsPatched := progress.report.annotationsPatched + 1 }⟩
  approve {w : W} {progress : Progress} {node : Node} {name uid : String}
    {request : SigningRequest} (hknown : known w progress) (hnode : node ∈ nodes)
    (hname : node.metadata.name = some name) (huid : node.metadata.uid = some uid)
    (hpending : request ∈ setting.pending) (hof : request.isOf name uid = true) :
    may w (.approve (request.approved setting.now)) ∧ ∀ reply after,
      moves w (.approve (request.approved setting.now)) reply after →
      known after ⟨progress.table,
        { progress.report with requestsApproved := progress.report.requestsApproved + 1 }⟩
  exhaust {w : W} {progress : Progress} (hknown : known w progress) : known w ⟨progress.table,
    { progress.report with nodesExhausted := progress.report.nodesExhausted + 1 }⟩

theorem rules_of_table {knows : W → ConfigMap → Prop}
    (hlasting : ∀ {w call reply after m}, moves w call reply after → knows w m → knows after m)
    (hfound : ∀ {w m table row}, knows w m → m.table = .ok table →
      table.findKey? row.nodeKey = some row → granted w row)
    (hextend : ∀ {w m table row}, knows w m → IsAddition setting nodes m table row →
      may w (.replace (withTable m (table.push row))) ∧ ∀ stored after,
        moves w (.replace (withTable m (table.push row))) stored after →
        granted after row ∧ knows after stored)
    (hpublish : ∀ {w row} name uid networking router, granted w row →
      may w (.create (NodeConfig.render name uid row networking router)))
    (hannotate : ∀ {w} name notes, may w (.annotate name notes))
    (happrove : ∀ {w} request, may w (.approve request)) :
    Rules moves may (fun w progress => ∀ m, progress.table = some m → knows w m) granted setting
      nodes where
  found hknown := hfound (hknown _ rfl)
  extend hknown hrow := by
    refine ⟨(hextend (hknown _ rfl) hrow).1, fun stored after hmoves => ?_⟩
    obtain ⟨hgranted, hstored⟩ := (hextend (hknown _ rfl) hrow).2 stored after hmoves
    exact ⟨hgranted, fun m hm => Option.some.inj hm ▸ hstored⟩
  publish hknown hrow _ _ _ _ _ :=
    ⟨hpublish _ _ _ _ hrow, fun _ _ hmoves m hm => hlasting hmoves (hknown m hm)⟩
  annotate notes hknown _ _ :=
    ⟨hannotate _ notes, fun _ _ hmoves m hm => hlasting hmoves (hknown m hm)⟩
  approve hknown _ _ _ _ _ :=
    ⟨happrove _, fun _ _ hmoves m hm => hlasting hmoves (hknown m hm)⟩
  exhaust hknown := hknown

namespace Rules

variable (hrules : Rules moves may known granted setting nodes)

include hrules

theorem heeds_allocation (hknown : known w ⟨some tableMap, report⟩)
    (htext : ∃ text, tableMap.value? Names.tableKey = some text ∧ text ≠ "")
    (hnetworking : setting.networking = some networking) (hnode : node ∈ nodes)
    (hname : node.metadata.name = some nodeName)
    (hnote : node.metadata.note? Names.publicKeyNote = some publicKey) (hkey : publicKey ≠ "") :
    (allocation networking nodeName publicKey tableMap report).Heeds moves may
      (fun w found => match found with
        | none => known w ⟨some tableMap, report⟩
        | some (row, m, report) => granted w row ∧ known w ⟨some m, report⟩) w := by
  refine (Tick.heeds_ofExcept (fun after table => tableMap.table = .ok table ∧
    known after ⟨some tableMap, report⟩) fun table ht => ⟨ht, hknown⟩).bind
    fun after table ⟨ht, hknown⟩ => ?_
  split
  next row hrow =>
    have hrowKey : row.nodeKey = publicKey := by simpa using List.find?_some hrow
    exact Tick.heeds_pure ⟨hrules.found hknown ht (hrowKey ▸ hrow), hknown⟩
  next hnone =>
    split
    next => exact Tick.heeds_pure hknown
    next => trivial
    next free hfree =>
      have hrow : IsAddition setting nodes tableMap table
          { free with nodeKey := publicKey, nodeName := nodeName } :=
        ⟨htext, ht, hnone, ⟨networking, free, hnetworking, hfree, rfl⟩, ⟨node, hnode, hname, hnote⟩,
          hkey⟩
      exact hrules.extend hknown hrow

theorem heeds_provision (hknown : known w ⟨some tableMap, report⟩)
    (htext : ∃ text, tableMap.value? Names.tableKey = some text ∧ text ≠ "")
    (hnetworking : setting.networking = some networking) (hnode : node ∈ nodes)
    (hname : node.metadata.name = some nodeName) (huid : node.metadata.uid = some nodeUid)
    (hnote : node.metadata.note? Names.publicKeyNote = some publicKey) (hkey : publicKey ≠ "") :
    (provision setting networking nodeName nodeUid publicKey tableMap report).Heeds moves may known
      w := by
  refine (hrules.heeds_allocation hknown htext hnetworking hnode hname hnote hkey).bind
    fun after found hfound => ?_
  cases found with
  | none => exact Tick.heeds_pure (hrules.exhaust hfound)
  | some found =>
    obtain ⟨row, stored, counted⟩ := found
    obtain ⟨hrow, hstored⟩ := hfound
    dsimp only
    split
    next => trivial
    next router hrouter =>
      obtain ⟨hmay, hcreated⟩ :=
        hrules.publish hstored hrow hnode hname huid hnetworking hrouter
      refine ⟨hmay, fun created between hmoves => ?_⟩
      exact hrules.annotate _ (hcreated created between hmoves) hnode hname

theorem heeds_serve (hknown : known w progress) (hnode : node ∈ nodes)
    (hname : node.metadata.name = some nodeName) (huid : node.metadata.uid = some nodeUid) :
    (serve setting node nodeName nodeUid progress).Heeds moves may known w := by
  unfold serve
  split
  next notes _ => exact hrules.annotate notes hknown hnode hname
  next key hdecide =>
    obtain ⟨hnote, hkey, hcan⟩ := Node.of_decide_provides hdecide
    split
    next networking tableMap hnetworking htable =>
      have htext : ∃ text, tableMap.value? Names.tableKey = some text ∧ text ≠ "" := by
        have hany := (Bool.and_eq_true_iff.mp hcan).2
        rw [htable, Option.bind_some] at hany
        obtain ⟨text, htext, hne⟩ := (Option.any_eq_true _ _).mp hany
        exact ⟨text, htext, by simpa using hne⟩
      have hknown : known w ⟨some tableMap, progress.report⟩ := htable ▸ hknown
      exact hrules.heeds_provision hknown htext hnetworking hnode hname huid hnote hkey
    next => exact Tick.heeds_pure hknown
  next => exact Tick.heeds_pure hknown

theorem heeds_approveAll {requests : List SigningRequest} (hknown : known w progress)
    (hnode : node ∈ nodes) (hname : node.metadata.name = some nodeName)
    (huid : node.metadata.uid = some nodeUid)
    (hrequests : ∀ request ∈ requests, request ∈ setting.pending ∧
      request.isOf nodeName nodeUid = true) :
    (approveAll setting.now requests progress.report).Heeds moves may
      (fun w report => known w ⟨progress.table, report⟩) w := by
  induction requests generalizing progress w with
  | nil => exact Tick.heeds_pure hknown
  | cons request rest ih =>
    obtain ⟨⟨hpending, hof⟩, hrest⟩ := List.forall_mem_cons.mp hrequests
    obtain ⟨hmay, hafter⟩ := hrules.approve hknown hnode hname huid hpending hof
    exact ⟨hmay, fun reply after hmoves => ih (hafter reply after hmoves) hrest⟩

theorem heeds_visit (hknown : known w progress) (hnode : node ∈ nodes) :
    (visit setting progress node).Heeds moves may known w := by
  unfold visit
  split
  next name uid hname huid =>
    refine (hrules.heeds_serve hknown hnode hname huid).bind fun after served hserved => ?_
    refine (hrules.heeds_approveAll hserved hnode hname huid fun request hrequest => ?_).bind
      fun last report hreport => Tick.heeds_pure hreport
    obtain ⟨hpending, hof⟩ := List.mem_filter.mp hrequest
    exact ⟨hpending, hof⟩
  next => exact Tick.heeds_pure hknown

theorem heeds_visitAll {todo : List Node} (hknown : known w progress) (htodo : todo ⊆ nodes) :
    (visitAll setting todo progress).Heeds moves may known w := by
  induction todo generalizing progress w with
  | nil => exact Tick.heeds_pure hknown
  | cons node rest ih =>
    obtain ⟨hnode, hrest⟩ := List.cons_subset.mp htodo
    exact (hrules.heeds_visit hknown hnode).bind fun after visited hvisited => ih hvisited hrest

end Rules

theorem heeds_tableOf {snapshot : Snapshot} {networking : Option Networking}
    (hfound : ∀ m, (snapshot.configMaps.find? fun m => m.isNamed Names.allocations) = some m →
      known w ⟨some m, report⟩)
    (hnone : (snapshot.configMaps.find? fun m => m.isNamed Names.allocations) = none →
      known w ⟨none, report⟩)
    (hbootstrap : (snapshot.configMaps.find? fun m => m.isNamed Names.allocations) = none →
      networking.any Networking.isSelfProvision = true →
      may w (.create emptyTable) ∧ ∀ created after, moves w (.create emptyTable) created after →
        known after ⟨some created,
          { report with tablesBootstrapped := report.tablesBootstrapped + 1 }⟩) :
    (tableOf snapshot networking report).Heeds moves may known w := by
  unfold tableOf
  split
  next m hfind => exact Tick.heeds_pure (hfound m hfind)
  next hfind =>
    split
    next hself => exact hbootstrap hfind hself
    next => exact Tick.heeds_pure (hnone hfind)

def settingOf (now : Timestamp) (snapshot : Snapshot) (cluster : ConfigMap)
    (networking : Option Networking) : Setting where
  now := now
  clusterPath := cluster.metadata.path
  networking := networking
  configMaps := snapshot.configMaps
  pending := snapshot.requests.filter SigningRequest.isPending

theorem reconcile_of_cluster {snapshot : Snapshot} {cluster : ConfigMap} (now : Timestamp)
    (h : (snapshot.configMaps.find? fun m => m.isNamed Names.clusterConfig) = some cluster) :
    reconcile now snapshot = (do
      let networking ← Tick.ofExcept .networking (networking? cluster)
      let progress ← tableOf snapshot networking { nodesSeen := snapshot.nodes.length }
      let result ← visitAll (settingOf now snapshot cluster networking) snapshot.nodes progress
      pure result.report) := by
  unfold reconcile
  rw [h]
  rfl

theorem reconcile_of_no_cluster {snapshot : Snapshot} (now : Timestamp)
    (h : (snapshot.configMaps.find? fun m => m.isNamed Names.clusterConfig) = none) :
    reconcile now snapshot = .fail .noClusterConfig := by
  unfold reconcile
  rw [h]

theorem reconcile_of_bad_networking {snapshot : Snapshot} {cluster : ConfigMap}
    {error : NetworkingError} (now : Timestamp)
    (h : (snapshot.configMaps.find? fun m => m.isNamed Names.clusterConfig) = some cluster)
    (herror : networking? cluster = .error error) :
    reconcile now snapshot = .fail (.networking error) := by
  rw [reconcile_of_cluster now h, herror]
  rfl

theorem heeds_reconcile (known : W → Progress → Prop) (granted : W → Allocation → Prop)
    {now : Timestamp} {snapshot : Snapshot}
    (hbegin : ∀ cluster networking,
      (snapshot.configMaps.find? fun m => m.isNamed Names.clusterConfig) = some cluster →
      networking? cluster = .ok networking →
      (tableOf snapshot networking { nodesSeen := snapshot.nodes.length }).Heeds moves may known w ∧
      Rules moves may known granted (settingOf now snapshot cluster networking) snapshot.nodes) :
    (reconcile now snapshot).Heeds moves may (fun w report => ∃ table, known w ⟨table, report⟩)
      w := by
  unfold reconcile
  split
  next => trivial
  next cluster hcluster =>
    refine (Tick.heeds_ofExcept (fun after networking =>
      after = w ∧ networking? cluster = .ok networking) fun networking h => ⟨rfl, h⟩).bind ?_
    rintro _ networking ⟨rfl, hnetworking⟩
    obtain ⟨htable, hrules⟩ := hbegin cluster networking hcluster hnetworking
    refine htable.bind fun after progress hknown => ?_
    refine (hrules.heeds_visitAll hknown (List.Subset.refl _)).bind fun last result hresult => ?_
    exact Tick.heeds_pure ⟨result.table, hresult⟩

/-- What holds of the begin of a tick and of each of its writes holds of all the calls it makes, in
whatever state the cluster is. -/
theorem of_mem_calls {σ : Type} {answers : Tick.Answers σ} {state : σ} {now : Timestamp}
    {snapshot : Snapshot} {call : Call} (moves : Tick.Moves Unit) (P : Call → Prop)
    (known : Unit → Progress → Prop) (granted : Unit → Allocation → Prop)
    (hmoves : ∀ state call reply after, answers state call = (.ok reply, after) →
      moves () call reply ())
    (hbegin : ∀ cluster networking,
      (snapshot.configMaps.find? fun m => m.isNamed Names.clusterConfig) = some cluster →
      networking? cluster = .ok networking →
      (tableOf snapshot networking { nodesSeen := snapshot.nodes.length }).Heeds moves
        (fun _ => P) known () ∧
      Rules moves (fun _ => P) known granted (settingOf now snapshot cluster networking)
        snapshot.nodes)
    (hcall : call ∈ (reconcile now snapshot).calls answers state) : P call := by
  obtain ⟨-, h⟩ := (heeds_reconcile known granted hbegin).of_mem_calls (fun _ => ()) hmoves hcall
  exact h

end Reconcile

end TunnelFleet
