import Mathlib.Data.Finset.Card
import TunnelFleet.Proofs.Dict
import TunnelFleet.Proofs.Ledger.Server
import TunnelFleet.Proofs.Tick.Account
import TunnelFleet.Proofs.Tick.Decision

namespace TunnelFleet

def Report.exhausted (n : Nat) : Report where
  nodesExhausted := n

def Node.withoutKey (node : Node) : Node :=
  { node with metadata := { node.metadata with
      annotations := node.metadata.annotations.map fun notes => notes.erase Names.publicKeyNote } }

namespace Node

theorem note?_withoutKey (node : Node) {key : String} (h : key ≠ Names.publicKeyNote) :
    node.withoutKey.metadata.note? key = node.metadata.note? key := by
  unfold Meta.note? withoutKey
  cases node.metadata.annotations with
  | none => rfl
  | some notes => exact notes.get?_erase_of_ne h

theorem publicKey_withoutKey (node : Node) :
    node.withoutKey.metadata.note? Names.publicKeyNote = none := by
  unfold Meta.note? withoutKey
  cases node.metadata.annotations with
  | none => rfl
  | some notes => exact notes.get?_erase_self Names.publicKeyNote

theorem isStale_withoutKey (node : Node) (clusterPath : String) (nodePath : Option String) :
    node.withoutKey.isStale clusterPath nodePath = node.isStale clusterPath nodePath := by
  have hcluster := node.note?_withoutKey (show Names.clusterConfigNote ≠ _ by decide)
  have hnode := node.note?_withoutKey (show Names.nodeConfigNote ≠ _ by decide)
  rw [isStale, isStale, hcluster, hnode]

theorem decide_withoutKey {node : Node} {clusterPath key : String} {nodePath : Option String}
    {can : Bool} (h : node.decide clusterPath nodePath can = .provision key) :
    node.withoutKey.decide clusterPath nodePath can = .converged := by
  have hstale := (of_decide_provision h).1
  rw [decide, isStale_withoutKey, hstale, publicKey_withoutKey]
  rfl

end Node

namespace Reconcile

theorem Progress.plus_exhausted (n k : Nat) :
    Progress.plus (.exhausted (n + k)) =
      Progress.plus (.exhausted n) ∘ Progress.plus (.exhausted k) := by
  funext p
  have hsum : Report.exhausted (n + k) = .exhausted k + .exhausted n := by
    rw [Nat.add_comm n k]
    rfl
  exact congrArg (Progress.mk p.table) (hsum ▸ (Report.add_assoc _ _ _).symm)

/-- A tick that comes to a node finds no addresses left for the key that the node published. -/
inductive Exhausts (setting : Setting) (progress : Progress) (node : Node) : Prop
  | intro {name uid key : String} {networking : Networking} {m : ConfigMap} {table : Table}
      (hname : node.metadata.name = some name) (huid : node.metadata.uid = some uid)
      (hdecision : node.decide setting.clusterPath (NodeConfig.path? setting.configMaps name)
        (canProvision setting progress.table) = .provision key)
      (hnetworking : setting.networking = some networking) (hm : progress.table = some m)
      (htable : m.table = .ok table) (hrow : table.findKey? key = none)
      (hnext : Allocation.next networking.routers table = .error .exhausted)

theorem visit_of_exhausts {setting : Setting} {progress : Progress} {node : Node}
    (h : Exhausts setting progress node) :
    visit setting progress node =
      Progress.plus (.exhausted 1) <$> visit setting progress node.withoutKey := by
  obtain ⟨hname, huid, hdecision, hnetworking, hm, htable, hrow, hnext⟩ := h
  rename_i name uid key networking m table
  have hserve : serve setting node name uid progress = .done (progress.plus (.exhausted 1)) := by
    unfold serve
    rw [hdecision, hnetworking, hm]
    dsimp only
    rw [provision, allocation_of_exhausted htable hrow hnext, Tick.done_bind, ← hm]
    rfl
  have hspared : serve setting node.withoutKey name uid progress = .done progress := by
    unfold serve
    rw [Node.decide_withoutKey hdecision]
    rfl
  have hreport : (progress.plus (.exhausted 1)).report = progress.report + .exhausted 1 := rfl
  unfold visit
  rw [hname, huid, show node.withoutKey.metadata.name = some name from hname,
    show node.withoutKey.metadata.uid = some uid from huid]
  dsimp only
  rw [hserve, hspared, Tick.done_bind, Tick.done_bind, hreport, approveAll_plus,
    bind_map_left, map_bind]
  rfl

variable {σ : Type} {answers : Tick.Answers σ} {state : σ} {setting : Setting}
  {progress : Progress} {nodes : List Node}

/-- A pass comes to the node at a place of its list, and finds no addresses left for it. -/
def ExhaustsAt (answers : Tick.Answers σ) (setting : Setting) :
    List Node → Progress → σ → Nat → Prop
  | [], _, _, _ => False
  | node :: _, progress, _, 0 => Exhausts setting progress node
  | node :: rest, progress, state, i + 1 => ∃ visited mid,
      (visit setting progress node).run answers state = (.ok visited, mid) ∧
        ExhaustsAt answers setting rest visited mid i

theorem ExhaustsAt.lt_length {i : Nat} (h : ExhaustsAt answers setting nodes progress state i) :
    i < nodes.length := by
  induction nodes generalizing progress state i with
  | nil => cases h
  | cons node rest ih =>
    cases i with
    | zero => exact Nat.succ_pos _
    | succ i =>
      obtain ⟨visited, mid, -, hrest⟩ := h
      exact Nat.succ_lt_succ (ih hrest)

def withoutKeys (marked : Nat → Bool) (nodes : List Node) : List Node :=
  nodes.mapIdx fun i node => if marked i then node.withoutKey else node

theorem withoutKeys_cons (marked : Nat → Bool) (node : Node) (rest : List Node) :
    withoutKeys marked (node :: rest) =
      (if marked 0 then node.withoutKey else node) ::
        withoutKeys (fun i => marked (i + 1)) rest := by
  rw [withoutKeys, List.mapIdx_cons]
  rfl

theorem countP_range_succ (marked : Nat → Bool) (n : Nat) :
    (List.range (n + 1)).countP marked =
      (List.range n).countP (fun i => marked (i + 1)) + if marked 0 then 1 else 0 := by
  rw [List.range_succ_eq_map, List.countP_cons, List.countP_map]
  rfl

theorem runsAs_visitAll_withoutKeys {marked : Nat → Bool}
    (h : ∀ i, marked i = true → ExhaustsAt answers setting nodes progress state i) :
    Tick.RunsAs answers (Progress.plus (.exhausted ((List.range nodes.length).countP marked)))
      (visitAll setting (withoutKeys marked nodes) progress) (visitAll setting nodes progress)
      state := by
  induction nodes generalizing marked progress state with
  | nil => exact ⟨rfl, rfl⟩
  | cons node rest ih =>
    rw [withoutKeys_cons, List.length_cons, countP_range_succ, visitAll, visitAll]
    by_cases hmarked : marked 0 = true
    · rw [if_pos hmarked, if_pos hmarked]
      have hruns : Tick.RunsAs answers (Progress.plus (.exhausted 1))
          (visit setting progress node.withoutKey) (visit setting progress node) state := by
        rw [visit_of_exhausts (h 0 hmarked)]
        exact .of_map _ _ state
      refine hruns.bind fun visited mid hrun => ?_
      have hrest : ∀ i, marked (i + 1) = true →
          ExhaustsAt answers setting rest (visited.plus (.exhausted 1)) mid i := by
        intro i hi
        obtain ⟨found, last, hfound, hat⟩ := h (i + 1) hi
        rw [hruns.run, hrun] at hfound
        obtain ⟨heq, rfl⟩ := Prod.mk.inj hfound
        exact Except.ok.inj heq ▸ hat
      have hafter := ih hrest
      rw [visitAll_plus] at hafter
      rw [Progress.plus_exhausted]
      exact (Tick.RunsAs.of_map _ _ mid).trans hafter
    · rw [if_neg hmarked, if_neg hmarked, Nat.add_zero]
      refine (Tick.RunsAs.refl _ state).bind fun visited mid hrun => ?_
      refine ih fun i hi => ?_
      obtain ⟨found, last, hfound, hat⟩ := h (i + 1) hi
      obtain ⟨heq, rfl⟩ := Prod.mk.inj (hrun.symm.trans hfound)
      exact Except.ok.inj heq ▸ hat

/-- A tick comes to the node at a place of its snapshot, and finds no addresses left for the key that
the node published. -/
def MeetsExhaustion (answers : Tick.Answers σ) (now : Timestamp) (snapshot : Snapshot) (state : σ)
    (i : Nat) : Prop :=
  ∃ cluster networking progress mid,
    (snapshot.configMaps.find? fun m => m.isNamed Names.clusterConfig) = some cluster ∧
    networking? cluster = .ok networking ∧
    (tableOf snapshot networking { nodesSeen := snapshot.nodes.length }).run answers state =
      (.ok progress, mid) ∧
    ExhaustsAt answers (settingOf now snapshot cluster networking) snapshot.nodes progress mid i

end Reconcile

/-- The snapshot before the nodes at some places of its list published their keys. -/
def Snapshot.withoutKeys (snapshot : Snapshot) (places : Finset Nat) : Snapshot :=
  { snapshot with nodes := Reconcile.withoutKeys (fun i => decide (i ∈ places)) snapshot.nodes }

theorem countP_mem_range {places : Finset Nat} {n : Nat} (h : ∀ i ∈ places, i < n) :
    (List.range n).countP (fun i => decide (i ∈ places)) = places.card := by
  have hsub : places ⊆ Finset.range n := fun i hi => Finset.mem_range.mpr (h i hi)
  have hnodup := (List.nodup_range (n := n)).filter fun i => decide (i ∈ places)
  calc (List.range n).countP (fun i => decide (i ∈ places))
      = ((List.range n).filter fun i => decide (i ∈ places)).toFinset.card := by
        rw [List.countP_eq_length_filter, List.toFinset_card_of_nodup hnodup]
    _ = places.card := by
        congr 1
        ext i
        simpa using fun hi => h i hi

open Reconcile in
/-- Whom a tick finds no addresses for leaves no other trace in it. Had any of these nodes not
published a key, the tick would make the same calls and come to the same result, but for the count of
such nodes. -/
theorem exhausted_nodes_leave_no_trace {σ : Type} {answers : Tick.Answers σ} {state : σ}
    {now : Timestamp} {snapshot : Snapshot} {places : Finset Nat}
    (h : ∀ i ∈ places, MeetsExhaustion answers now snapshot state i) :
    let tick := reconcile now snapshot
    let other := reconcile now (snapshot.withoutKeys places)
    tick.calls answers state = other.calls answers state ∧
      tick.run answers state =
        ((other.run answers state).1.map (· + Report.exhausted places.card),
          (other.run answers state).2) := by
  intro tick other
  have hruns : Tick.RunsAs answers (· + Report.exhausted places.card) other tick state := by
    cases hcluster : snapshot.configMaps.find? fun m => m.isNamed Names.clusterConfig with
    | none =>
      have htick : tick = .fail .noClusterConfig := reconcile_of_no_cluster now hcluster
      have hother : other = .fail .noClusterConfig := reconcile_of_no_cluster now hcluster
      rw [htick, hother]
      exact ⟨rfl, rfl⟩
    | some cluster =>
      have hlength : (snapshot.withoutKeys places).nodes.length = snapshot.nodes.length :=
        List.length_mapIdx
      have htick := reconcile_of_cluster now hcluster
      have hother := @reconcile_of_cluster (snapshot.withoutKeys places) cluster now hcluster
      rw [hlength] at hother
      change Tick.RunsAs answers _ (reconcile now (snapshot.withoutKeys places))
        (reconcile now snapshot) state
      rw [htick, hother]
      refine (Tick.RunsAs.refl _ state).bind fun networking mid hread => ?_
      obtain ⟨hnetworking, -, rfl⟩ := (Tick.ran_of_run hread).of_ofExcept
      refine (Tick.RunsAs.refl _ mid).bind fun progress last hopen => ?_
      have hat : ∀ i ∈ places, ExhaustsAt answers (settingOf now snapshot cluster networking)
          snapshot.nodes progress last i := by
        intro i hi
        obtain ⟨found, settings, start, begun, hfound, hsettings, hstart, hat⟩ := h i hi
        obtain rfl := Option.some.inj (hfound.symm.trans hcluster)
        obtain rfl := Except.ok.inj (hsettings.symm.trans hnetworking)
        obtain ⟨heq, rfl⟩ := Prod.mk.inj (hstart.symm.trans hopen)
        exact Except.ok.inj heq ▸ hat
      rw [← countP_mem_range fun i hi => (hat i hi).lt_length]
      have hvisits := runsAs_visitAll_withoutKeys fun i hi => hat i (of_decide_eq_true hi)
      exact hvisits.bind fun result _ _ => ⟨rfl, rfl⟩
  exact ⟨hruns.calls, hruns.run⟩

namespace Snapshot

def fullSettings : Networking where
  nodeRange := "10.1.0.0/16"
  podRange := ""
  serviceRange := ""
  mode := some .selfProvision
  cniNumber := none
  cniMtu := none
  routers := [⟨"R", "r:1", "10.1.0.0/31", "10.2.0.0/16", 24⟩]

def full : Snapshot where
  nodes := (small "n" "K").nodes ++
    [{ metadata := { name := some "other", uid := some "2" } }]
  configMaps := [fullCluster, Reconcile.emptyTable]
  requests := [{
    metadata := { name := some "r", owners := some [⟨"v1", none, none, "Node", "n", "1"⟩] }
    spec := { username := some (Names.serviceAccount "n"), usages := some ["server auth"] } }]

end Snapshot

theorem exhausted_nodes_leave_no_trace_full :
    let snapshot := Snapshot.full
    let cluster : Cluster := ⟨snapshot.nodes, snapshot.configMaps, snapshot.requests⟩
    let now : Timestamp := { seconds := 0 }
    let calls := (reconcile now snapshot).calls Cluster.answer cluster
    Reconcile.MeetsExhaustion Cluster.answer now snapshot cluster 0 ∧ calls.length = 2 ∧
      calls = (reconcile now (snapshot.withoutKeys {0})).calls Cluster.answer cluster := by
  intro snapshot cluster now calls
  have hmeets : Reconcile.MeetsExhaustion Cluster.answer now snapshot cluster 0 := by
    refine ⟨Snapshot.fullCluster, some Snapshot.fullSettings,
      ⟨some Reconcile.emptyTable, { nodesSeen := 2 }⟩, cluster, rfl, by decide +kernel, rfl, ?_⟩
    exact @Reconcile.Exhausts.intro _ _ _ "n" "1" "K" Snapshot.fullSettings Reconcile.emptyTable
      ⟨[]⟩ rfl rfl (by decide +kernel) rfl rfl (by decide +kernel) rfl (by decide +kernel)
  have hplaces : ∀ i ∈ ({0} : Finset Nat),
      Reconcile.MeetsExhaustion Cluster.answer now snapshot cluster i := by
    intro i hi
    exact Finset.mem_singleton.mp hi ▸ hmeets
  exact ⟨hmeets, by decide +kernel, (exhausted_nodes_leave_no_trace hplaces).1⟩

end TunnelFleet
