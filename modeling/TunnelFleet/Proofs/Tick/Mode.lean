import TunnelFleet.Cluster
import TunnelFleet.Proofs.Ledger.Server
import TunnelFleet.Proofs.Tick.Report

namespace TunnelFleet

namespace ConfigMap

/-- The cluster's config map with another text of its settings; every other config map as it is. -/
def withNetworking (text : String) (m : ConfigMap) : ConfigMap :=
  if m.isNamed Names.clusterConfig then
    { m with data := some ((m.data.getD .empty).insert Names.networkingKey text) }
  else m

variable (text : String) (m : ConfigMap)

@[simp] theorem metadata_withNetworking : (m.withNetworking text).metadata = m.metadata := by
  unfold withNetworking
  split <;> rfl

@[simp] theorem isNamed_withNetworking (name : String) :
    (m.withNetworking text).isNamed name = m.isNamed name := by
  rw [isNamed, metadata_withNetworking, isNamed]

theorem find?_map_withNetworking (name : String) (configMaps : List ConfigMap) :
    (configMaps.map (withNetworking text)).find? (fun m => m.isNamed name) =
      (configMaps.find? fun m => m.isNamed name).map (withNetworking text) := by
  rw [List.find?_map]
  congr 2
  funext m
  exact m.isNamed_withNetworking text name

theorem path?_map_withNetworking (configMaps : List ConfigMap) (nodeName : String) :
    NodeConfig.path? (configMaps.map (withNetworking text)) nodeName =
      NodeConfig.path? configMaps nodeName := by
  have howner (m : ConfigMap) :
      NodeConfig.ownerName? (m.withNetworking text) = NodeConfig.ownerName? m := by
    rw [NodeConfig.ownerName?, metadata_withNetworking, NodeConfig.ownerName?]
  unfold NodeConfig.path?
  rw [List.filter_map, List.getLast?_map, Option.map_map]
  simp only [Function.comp_def, howner, metadata_withNetworking]

end ConfigMap

namespace Snapshot

def withNetworking (snapshot : Snapshot) (text : String) : Snapshot :=
  { snapshot with configMaps := snapshot.configMaps.map (ConfigMap.withNetworking text) }

def hasTable (snapshot : Snapshot) : Bool :=
  (snapshot.tableMap?.bind fun m => m.value? Names.tableKey).any fun text => text != ""

def IsSet (snapshot : Snapshot) (networking : Networking) : Prop :=
  ∃ cluster, (snapshot.configMaps.find? fun m => m.isNamed Names.clusterConfig) = some cluster ∧
    Reconcile.networking? cluster = .ok (some networking)

theorem tableMap?_withNetworking (snapshot : Snapshot) (text : String) :
    (snapshot.withNetworking text).tableMap? = snapshot.tableMap? := by
  unfold tableMap? withNetworking
  rw [ConfigMap.find?_map_withNetworking]
  cases hfind : snapshot.configMaps.find? fun m => m.isNamed Names.allocations with
  | none => rfl
  | some m =>
    have hname : m.metadata.name = some Names.allocations := by
      simpa [ConfigMap.isNamed] using List.find?_some hfind
    have hother : m.isNamed Names.clusterConfig = false := by
      rw [ConfigMap.isNamed, hname]
      decide
    rw [Option.map_some, ConfigMap.withNetworking, hother]
    rfl

end Snapshot

namespace Reconcile

variable {setting : Setting} {networking : Networking}

theorem networking?_withNetworking {cluster : ConfigMap} {text : String}
    (hnamed : cluster.isNamed Names.clusterConfig = true)
    (htext : Networking.ofText text = .ok networking) :
    networking? (cluster.withNetworking text) = .ok (some networking) := by
  have hvalue : (cluster.withNetworking text).value? Names.networkingKey = some text := by
    rw [ConfigMap.withNetworking, if_pos hnamed, ConfigMap.value?]
    simp
  rw [networking?, hvalue]
  exact congrArg (Except.map some) htext

theorem serve_eq_of_mode (hnetworking : setting.networking = some networking) (mode : Option Mode)
    {configMaps : List ConfigMap} (hpath : ∀ nodeName,
      NodeConfig.path? configMaps nodeName = NodeConfig.path? setting.configMaps nodeName)
    (node : Node) (nodeName nodeUid : String) (progress : Progress) :
    serve { setting with
      networking := some { networking with mode := mode }
      configMaps := configMaps } node nodeName nodeUid progress =
        serve setting node nodeName nodeUid progress := by
  unfold serve canProvision
  rw [hpath, hnetworking]
  cases progress.table <;> rfl

theorem visitAll_eq_of_mode (hnetworking : setting.networking = some networking)
    (mode : Option Mode) {configMaps : List ConfigMap} (hpath : ∀ nodeName,
      NodeConfig.path? configMaps nodeName = NodeConfig.path? setting.configMaps nodeName)
    (nodes : List Node) (progress : Progress) :
    visitAll { setting with
      networking := some { networking with mode := mode }
      configMaps := configMaps } nodes progress = visitAll setting nodes progress := by
  induction nodes generalizing progress with
  | nil => rfl
  | cons node rest ih =>
    unfold visitAll visit
    simp only [serve_eq_of_mode hnetworking mode hpath, ih]

theorem reconcile_of_table {snapshot : Snapshot} {cluster tableMap : ConfigMap}
    (hcluster : (snapshot.configMaps.find? fun m => m.isNamed Names.clusterConfig) = some cluster)
    (hnetworking : networking? cluster = .ok (some networking))
    (htable : snapshot.tableMap? = some tableMap) (now : Timestamp) :
    reconcile now snapshot = (visitAll (settingOf now snapshot cluster (some networking))
      snapshot.nodes ⟨some tableMap, { nodesSeen := snapshot.nodes.length }⟩).bind fun progress =>
        .done progress.report := by
  have hprogress (report : Report) :
      tableOf snapshot (some networking) report = .done ⟨some tableMap, report⟩ := by
    unfold Snapshot.tableMap? at htable
    rw [tableOf, htable]
    rfl
  unfold reconcile
  rw [hcluster]
  dsimp only
  rw [hnetworking]
  show (tableOf _ _ _).bind _ = _
  rw [hprogress]
  rfl

end Reconcile

open Reconcile in
theorem reconcile_withNetworking {snapshot : Snapshot} {networking : Networking} {mode : Option Mode}
    {text : String} (hset : snapshot.IsSet networking)
    (htext : Networking.ofText text = .ok { networking with mode := mode })
    (htable : snapshot.tableMap?.isSome) (now : Timestamp) :
    reconcile now (snapshot.withNetworking text) = reconcile now snapshot := by
  obtain ⟨cluster, hcluster, hnetworking⟩ := hset
  obtain ⟨tableMap, htable⟩ := Option.isSome_iff_exists.mp htable
  have hother := (snapshot.tableMap?_withNetworking text).trans htable
  have hnamed : cluster.isNamed Names.clusterConfig = true := by
    simpa using List.find?_some hcluster
  have hclusterOther : ((snapshot.withNetworking text).configMaps.find? fun m =>
      m.isNamed Names.clusterConfig) = some (cluster.withNetworking text) := by
    unfold Snapshot.withNetworking
    rw [ConfigMap.find?_map_withNetworking, hcluster, Option.map_some]
  have hnetworkingOther := networking?_withNetworking hnamed htext
  have hsetting : (settingOf now snapshot cluster (some networking)).networking = some networking :=
    rfl
  have hvisits := visitAll_eq_of_mode hsetting mode
    (ConfigMap.path?_map_withNetworking text snapshot.configMaps) snapshot.nodes
  rw [reconcile_of_table hcluster hnetworking htable now,
    reconcile_of_table hclusterOther hnetworkingOther hother now, ← hvisits, settingOf,
    ConfigMap.metadata_withNetworking]
  rfl

open Reconcile in
theorem writeKind_of_mode {snapshot : Snapshot} {networking : Networking} {now : Timestamp}
    {σ : Type} {answers : Tick.Answers σ} {state : σ} {call : Call}
    (hset : snapshot.IsSet networking) (hmode : networking.isSelfProvision = false)
    (hcall : call ∈ (reconcile now snapshot).calls answers state) :
    call.writeKind ≠ .table ∧ (call.writeKind = .row → snapshot.hasTable = true) := by
  let knows (_ : Unit) (progress : Progress) : Prop := ∀ m, progress.table = some m →
    (∃ text, m.value? Names.tableKey = some text ∧ text ≠ "") → snapshot.hasTable = true
  refine of_mem_calls (fun _ _ _ _ => True)
    (fun call => call.writeKind ≠ .table ∧ (call.writeKind = .row → snapshot.hasTable = true))
    knows (fun _ _ => True) (fun _ _ _ _ _ => trivial)
    (fun cluster settings hcluster hsettings => ⟨?_, ?_⟩) hcall
  · refine heeds_tableOf (fun m hfind n hn => ?_) (fun _ n hn => nomatch hn) fun _ hself => ?_
    · obtain rfl := Option.some.inj hn
      rintro ⟨text, htext, hne⟩
      unfold Snapshot.hasTable Snapshot.tableMap?
      rw [hfind, Option.bind_some, htext]
      simpa using hne
    · obtain ⟨found, hfound, hnetworking⟩ := hset
      obtain rfl := Option.some.inj (hfound.symm.trans hcluster)
      obtain rfl := Except.ok.inj (hnetworking.symm.trans hsettings)
      rw [Option.any_some, hmode] at hself
      cases hself
  · refine rules_of_table (fun _ h => h) (fun _ _ _ => trivial) ?_ ?_ ?_ ?_
    · intro _ m table row hknows hrow
      have htable := hknows hrow.hasText
      simp [Call.writeKind, htable]
    · intro _ row name uid networking router _
      have hnamed : (NodeConfig.render name uid row networking router).isNamed Names.allocations =
          false := NodeConfig.isNamed_render (by decide)
      simp [Call.writeKind, hnamed]
    · simp [Call.writeKind]
    · simp [Call.writeKind]

/-- Without the mode for it no tick makes a table. But where there is a table, a tick adds the rows to
it that it would add in any mode. -/
theorem only_the_table_asks_for_the_mode {snapshot : Snapshot} {networking : Networking}
    (hset : snapshot.IsSet networking) (hmode : networking.isSelfProvision = false)
    (now : Timestamp) :
    (∀ {σ : Type} (answers : Tick.Answers σ) (state : σ),
      ∀ call ∈ (reconcile now snapshot).calls answers state,
        call.writeKind ≠ .table ∧ (call.writeKind = .row → snapshot.hasTable = true)) ∧
      (snapshot.tableMap?.isSome → ∀ mode text,
        Networking.ofText text = .ok { networking with mode := mode } →
        reconcile now (snapshot.withNetworking text) = reconcile now snapshot) := by
  refine ⟨fun answers state call hcall => ?_, fun htable mode text htext => ?_⟩
  · exact writeKind_of_mode hset hmode hcall
  · exact reconcile_withNetworking hset htext htable now

namespace Snapshot

def smallSettings (mode : Option Mode) : Networking where
  nodeRange := "10.1.0.0/16"
  podRange := ""
  serviceRange := ""
  mode := mode
  cniNumber := none
  cniMtu := none
  routers := [⟨"R", "r:1", "10.1.0.0/24", "10.2.0.0/16", 24⟩]

def smallText (mode : Mode) : String :=
  "NodeRange = 10.1.0.0/16\nWireguardMode = " ++ mode.text ++ "\n[Router]\nPublicKey = R\n" ++
    "Endpoint = r:1\nNodePool = 10.1.0.0/24\nPodPool = 10.2.0.0/16\nPodPrefixLen = 24\n"

def smallManual : Snapshot :=
  { small "n" "K" with configMaps := [smallCluster, Reconcile.emptyTable] }.withNetworking
    (smallText .manual)

theorem isSet_smallManual : smallManual.IsSet (smallSettings (some .manual)) :=
  ⟨smallCluster.withNetworking (smallText .manual), by decide +kernel, by decide +kernel⟩

end Snapshot

theorem only_the_table_asks_for_the_mode_small :
    let manual := Snapshot.smallManual
    let cluster : Cluster := ⟨manual.nodes, manual.configMaps, manual.requests⟩
    let now : Timestamp := { seconds := 0 }
    (Snapshot.smallSettings (some .manual)).isSelfProvision = false ∧
      (∀ call ∈ (reconcile now manual).calls Cluster.answer cluster, call.writeKind ≠ .table) ∧
      reconcile now (manual.withNetworking (Snapshot.smallText .selfProvision)) =
        reconcile now manual := by
  intro manual cluster now
  obtain ⟨hcalls, hsame⟩ := only_the_table_asks_for_the_mode Snapshot.isSet_smallManual rfl now
  exact ⟨rfl, fun call hcall => (hcalls Cluster.answer cluster call hcall).1,
    hsame rfl (some .selfProvision) _ (by decide +kernel)⟩

/-- In the manual mode a row is added to a table that is there. -/
theorem not_only_selfProvision_adds : ¬ ∀ (snapshot : Snapshot) (networking : Networking),
    snapshot.IsSet networking → networking.isSelfProvision = false →
    ∀ (now : Timestamp) (cluster : Cluster),
      ∀ call ∈ (reconcile now snapshot).calls Cluster.answer cluster,
        call.writeKind ≠ .table ∧ call.writeKind ≠ .row := by
  intro h
  let snapshot := Snapshot.smallManual
  let calls := (reconcile { seconds := 0 } snapshot).calls Cluster.answer
    ⟨snapshot.nodes, snapshot.configMaps, snapshot.requests⟩
  have hrow : ∃ call ∈ calls, call.writeKind = .row := by decide +kernel
  obtain ⟨call, hcall, hkind⟩ := hrow
  exact (h snapshot _ Snapshot.isSet_smallManual rfl _ _ call hcall).2 hkind

end TunnelFleet
