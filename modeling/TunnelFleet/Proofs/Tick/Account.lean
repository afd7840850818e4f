import TunnelFleet.Proofs.Tick.Walk

namespace TunnelFleet

namespace Report

instance : Add Report where
  add r s := {
    nodesSeen := r.nodesSeen + s.nodesSeen
    tablesBootstrapped := r.tablesBootstrapped + s.tablesBootstrapped
    annotationsPatched := r.annotationsPatched + s.annotationsPatched
    allocationsWritten := r.allocationsWritten + s.allocationsWritten
    nodeConfigsCreated := r.nodeConfigsCreated + s.nodeConfigsCreated
    requestsApproved := r.requestsApproved + s.requestsApproved
    nodesExhausted := r.nodesExhausted + s.nodesExhausted }

theorem add_def (r s : Report) : r + s = ⟨r.nodesSeen + s.nodesSeen,
    r.tablesBootstrapped + s.tablesBootstrapped, r.annotationsPatched + s.annotationsPatched,
    r.allocationsWritten + s.allocationsWritten, r.nodeConfigsCreated + s.nodeConfigsCreated,
    r.requestsApproved + s.requestsApproved, r.nodesExhausted + s.nodesExhausted⟩ :=
  rfl

theorem empty_add (r : Report) : {} + r = r := by
  simp only [add_def, Nat.zero_add]

theorem add_assoc (r s t : Report) : r + s + t = r + (s + t) := by
  simp only [add_def, Nat.add_assoc]

theorem add_right_comm (r s t : Report) : r + s + t = r + t + s := by
  simp only [add_def, Nat.add_right_comm]

end Report

namespace Reconcile

def Progress.plus (extra : Report) (p : Progress) : Progress :=
  { p with report := p.report + extra }

-- a tick only ever adds to its account, so what the account began with can be added afterwards

variable (extra report : Report) (progress : Progress) (setting : Setting)

theorem approveAll_plus (now : Timestamp) (requests : List SigningRequest) :
    approveAll now requests (report + extra) =
      (· + extra) <$> approveAll now requests report := by
  induction requests generalizing report with
  | nil => rfl
  | cons request rest ih =>
    have hone := report.add_right_comm extra { requestsApproved := 1 }
    rw [approveAll, approveAll, map_bind]
    refine congrArg _ (funext fun _ => ?_)
    exact (congrArg (approveAll now rest) hone).trans (ih _)

theorem allocation_plus (networking : Networking) (name key : String) (m : ConfigMap) :
    allocation networking name key m (report + extra) =
      Option.map (fun (row, stored, report) => (row, stored, report + extra)) <$>
        allocation networking name key m report := by
  rw [allocation, allocation, map_bind]
  refine congrArg _ (funext fun table => ?_)
  cases table.findKey? key with
  | some row => rfl
  | none =>
    have hone := report.add_right_comm extra { allocationsWritten := 1 }
    dsimp only
    split
    · rfl
    · rfl
    · rw [map_bind]
      refine congrArg _ (funext fun stored => ?_)
      exact congrArg (fun report => Tick.done (some (_, stored, report))) hone

theorem provision_plus (networking : Networking) (name uid key : String) (m : ConfigMap) :
    provision setting networking name uid key m (report + extra) =
      Progress.plus extra <$> provision setting networking name uid key m report := by
  rw [provision, provision, allocation_plus, bind_map_left, map_bind]
  refine congrArg _ (funext fun found => ?_)
  cases found with
  | none =>
    have hone := report.add_right_comm extra { nodesExhausted := 1 }
    exact congrArg (fun report => Tick.done (Progress.mk (some m) report)) hone
  | some found =>
    obtain ⟨row, stored, report⟩ := found
    have htwo := (report + { nodeConfigsCreated := 1 }).add_right_comm extra
      { annotationsPatched := 1 }
    rw [report.add_right_comm { nodeConfigsCreated := 1 } extra] at htwo
    dsimp only [Option.map_some]
    split
    · rfl
    · rw [map_bind]
      refine congrArg _ (funext fun created => ?_)
      rw [map_bind]
      refine congrArg _ (funext fun _ => ?_)
      exact congrArg (fun report => Tick.done (Progress.mk (some stored) report)) htwo

theorem serve_plus (node : Node) (name uid : String) :
    serve setting node name uid (progress.plus extra) =
      Progress.plus extra <$> serve setting node name uid progress := by
  have htable : (progress.plus extra).table = progress.table := rfl
  unfold serve
  rw [htable]
  split
  · have hone := progress.report.add_right_comm extra { annotationsPatched := 1 }
    rw [map_bind]
    refine congrArg _ (funext fun _ => ?_)
    exact congrArg (fun report => Tick.done (Progress.mk progress.table report)) hone
  · split
    · exact provision_plus extra progress.report setting _ _ _ _ _
    · rfl
  · rfl

theorem visit_plus (node : Node) :
    visit setting (progress.plus extra) node =
      Progress.plus extra <$> visit setting progress node := by
  unfold visit
  split
  · rw [serve_plus, bind_map_left, map_bind]
    refine congrArg _ (funext fun served => ?_)
    have hreport : (served.plus extra).report = served.report + extra := rfl
    dsimp only
    rw [hreport, approveAll_plus, bind_map_left, map_bind]
    rfl
  · rfl

theorem visitAll_plus (nodes : List Node) :
    visitAll setting nodes (progress.plus extra) =
      Progress.plus extra <$> visitAll setting nodes progress := by
  induction nodes generalizing progress with
  | nil => rfl
  | cons node rest ih =>
    rw [visitAll, visitAll, visit_plus, bind_map_left, map_bind]
    exact congrArg _ (funext fun visited => ih visited)

theorem tableOf_plus (snapshot : Snapshot) (networking : Option Networking) :
    tableOf snapshot networking (report + extra) =
      Progress.plus extra <$> tableOf snapshot networking report := by
  have hone := report.add_right_comm extra { tablesBootstrapped := 1 }
  unfold tableOf
  split
  · rfl
  · split
    · rw [map_bind]
      refine congrArg _ (funext fun created => ?_)
      exact congrArg (fun report => Tick.done (Progress.mk (some created) report)) hone
    · rfl

/-- What a tick does once it has read its settings. -/
def work (now : Timestamp) (snapshot : Snapshot) (cluster : ConfigMap)
    (networking : Option Networking) : Tick Progress := do
  let progress ← tableOf snapshot networking {}
  visitAll (settingOf now snapshot cluster networking) snapshot.nodes progress

variable {snapshot : Snapshot} {cluster : ConfigMap} {networking : Option Networking}

theorem reconcile_eq_work (now : Timestamp)
    (hcluster : (snapshot.configMaps.find? fun m => m.isNamed Names.clusterConfig) = some cluster)
    (hnetworking : networking? cluster = .ok networking) :
    reconcile now snapshot =
      (fun result => result.report + { nodesSeen := snapshot.nodes.length }) <$>
        work now snapshot cluster networking := by
  have hseen : ({ nodesSeen := snapshot.nodes.length } : Report) =
      {} + { nodesSeen := snapshot.nodes.length } := (Report.empty_add _).symm
  rw [reconcile_of_cluster now hcluster, hnetworking, Tick.ofExcept, Tick.done_bind, hseen,
    tableOf_plus, bind_map_left, work, map_bind, Report.empty_add]
  refine congrArg _ (funext fun progress => ?_)
  rw [visitAll_plus, bind_map_left]
  rfl

theorem runsAs_work {σ : Type} (answers : Tick.Answers σ) (state : σ) (now : Timestamp)
    (hcluster : (snapshot.configMaps.find? fun m => m.isNamed Names.clusterConfig) = some cluster)
    (hnetworking : networking? cluster = .ok networking) :
    Tick.RunsAs answers (fun result => result.report + { nodesSeen := snapshot.nodes.length })
      (work now snapshot cluster networking) (reconcile now snapshot) state := by
  rw [reconcile_eq_work now hcluster hnetworking]
  exact .of_map _ _ state

end Reconcile

end TunnelFleet
