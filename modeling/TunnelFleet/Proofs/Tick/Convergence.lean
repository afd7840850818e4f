import TunnelFleet.Proofs.Ledger.Server
import TunnelFleet.Proofs.Tick.Pass

namespace TunnelFleet

namespace Cluster

open Reconcile

variable {σ : Type} {answers : Tick.Answers σ} {view : σ → Cluster} {s after : σ}
  {made announced : List Call} {t : Terms} {c : Cluster}

def HasTerms (t : Terms) (c : Cluster) : Prop :=
  ∃ m, c.config? = some m ∧ networking? m = .ok t.networking ∧ m.metadata.path = t.clusterPath

theorem HasTerms.unique {other : Terms} (h : c.HasTerms t) (ho : c.HasTerms other) : t = other := by
  obtain ⟨m, hm, hnetworking, hpath⟩ := h
  obtain ⟨n, hn, hother, hpath'⟩ := ho
  obtain rfl := Option.some.inj (hm.symm.trans hn)
  exact Terms.ext (hpath.symm.trans hpath') (Except.ok.inj (hnetworking.symm.trans hother))

def IsOpen (networking : Option Networking) (c : Cluster) : Prop :=
  c.table?.isSome = true ∨ networking.any Networking.isSelfProvision = false

/-- What the begin of a tick does to a cluster. -/
structure Opens (networking : Option Networking) (c after : Cluster) (made : List Call) :
    Prop where
  isOpen : after.IsOpen networking
  nodes : after.nodes = c.nodes
  requests : after.requests = c.requests
  config : after.config? = c.config?
  paths : ∀ name, NodeConfig.path? c.configMaps name = NodeConfig.path? after.configMaps name
  quiet : c.IsOpen networking → made = [] ∧ after = c

theorem ran_tableOf (hcarries : Carries answers view) {networking : Option Networking}
    {report : Report} {progress : Progress}
    (h : Tick.Ran answers (tableOf (view s).snapshot networking report) s made progress after) :
    Opens networking (view s) (view after) made ∧ progress.table = (view after).table? := by
  have hfind : ((view s).snapshot.configMaps.find? fun m => m.isNamed Names.allocations) =
      (view s).table? := rfl
  unfold tableOf at h
  rw [hfind] at h
  cases htable : (view s).table? with
  | some m =>
    rw [htable] at h
    obtain ⟨rfl, rfl, rfl⟩ := h.of_pure
    have hopen : (view after).IsOpen networking := .inl (by rw [htable]; rfl)
    exact ⟨⟨hopen, rfl, rfl, rfl, fun _ => rfl, fun _ => ⟨rfl, rfl⟩⟩, htable.symm⟩
  | none =>
    rw [htable] at h
    dsimp only at h
    split at h
    next hself =>
      obtain ⟨calls, created, mid, nothing, rfl, hcreate, hpure⟩ := h.of_bind
      obtain ⟨rfl, hcreated⟩ := hcreate.of_call (.create _)
      obtain ⟨rfl, rfl, rfl⟩ := hpure.of_pure
      obtain ⟨_, version, -, -, rfl, hadded⟩ := hcarries _ _ _ _ hcreated
      have hfound : ((view s).added (emptyTable.inFleet.withVersion version)).table? =
          some (emptyTable.inFleet.withVersion version) := by
        have hnone : (view s).configMaps.find? (fun m => m.isNamed Names.allocations) = none := htable
        rw [table?, added, List.find?_append, hnone, Option.none_or]
        exact List.find?_cons_of_pos (by rw [ConfigMap.isNamed_stored]; decide)
      rw [hadded]
      refine ⟨⟨.inl (by rw [hfound]; rfl), rfl, rfl, ?_, fun name => ?_, ?_⟩, hfound.symm⟩
      · exact config?_added _ (by rw [ConfigMap.isNamed_stored]; decide)
      · exact (NodeConfig.path?_append_of_ne (by
          rw [ConfigMap.ownerName?_stored]
          have hnone : NodeConfig.ownerName? emptyTable = none := by decide
          simp [hnone])).symm
      · rintro (hsome | hmanual)
        · simp [htable] at hsome
        · cases hmanual.symm.trans hself
    next hmanual =>
      obtain ⟨rfl, rfl, rfl⟩ := h.of_pure
      have hopen : (view after).IsOpen networking := .inr (by simpa using hmanual)
      exact ⟨⟨hopen, rfl, rfl, rfl, fun _ => rfl, fun _ => ⟨rfl, rfl⟩⟩, htable.symm⟩

theorem ran_reconcile (hcarries : Carries answers view) {now : Timestamp} {report : Report}
    (hnodes : ((view s).nodes.filterMap (·.metadata.name)).Nodup)
    (hrequests : ((view s).requests.filterMap (·.metadata.name)).Nodup)
    (h : Tick.Ran answers (reconcile now (view s).snapshot) s made report after) :
    ∃ (setting : Setting) (opening calls : List Call) (mid : σ) (progress result : Progress),
      made = opening ++ calls ∧ (view s).HasTerms setting.terms ∧
      setting.pending = (view s).requests.filter SigningRequest.isPending ∧
      Opens setting.networking (view s) (view mid) opening ∧
      Pass setting (view mid) (view mid) opening [] (view s).nodes progress ∧
      Tick.Ran answers (visitAll setting (view s).nodes progress) mid calls result after := by
  unfold reconcile at h
  split at h
  next => cases h
  next cluster hcluster =>
    obtain ⟨_, networking, start, rest, rfl, hread, hrest⟩ := h.of_bind
    obtain ⟨hnetworking, rfl, hstart⟩ := hread.of_ofExcept
    obtain rfl := hstart.symm
    obtain ⟨opening, progress, mid, others, rfl, hopening, hothers⟩ := hrest.of_bind
    obtain ⟨calls, result, last, nothing, rfl, hcalls, hlast⟩ := hothers.of_bind
    obtain ⟨rfl, rfl, rfl⟩ := hlast.of_pure
    obtain ⟨hopens, htable⟩ := ran_tableOf hcarries hopening
    let setting : Setting := {
      now
      clusterPath := cluster.metadata.path
      networking
      configMaps := (view s).configMaps
      pending := (view s).requests.filter SigningRequest.isPending }
    refine ⟨setting, opening, calls, mid, progress, result, ?_, ⟨cluster, hcluster, hnetworking, rfl⟩,
      rfl, hopens, ?_, hcalls⟩
    · rw [List.nil_append, List.append_nil]
    · refine ⟨rfl, rfl, htable, hopens.nodes, ?_, ?_, fun _ _ name _ => hopens.paths name,
        fun request hrequest hpending => ?_, List.forall_mem_nil _⟩
      · rw [hopens.nodes]
        exact hnodes
      · rw [hopens.requests]
        exact hrequests
      · rw [hopens.requests] at hrequest
        exact List.mem_filter.mpr ⟨hrequest, hpending⟩

/-- A cluster after a tick over it. -/
structure IsCalm (t : Terms) (made : List Call) (c : Cluster) : Prop where
  terms : c.HasTerms t
  isOpen : c.IsOpen t.networking
  nodeNames : (c.nodes.filterMap (·.metadata.name)).Nodup
  requestNames : (c.requests.filterMap (·.metadata.name)).Nodup
  settled : ∀ node ∈ c.nodes, c.IsSettled t made node

theorem isCalm_of_ran (hcarries : Carries answers view) {now : Timestamp} {report : Report}
    (hnodes : ((view s).nodes.filterMap (·.metadata.name)).Nodup)
    (hrequests : ((view s).requests.filterMap (·.metadata.name)).Nodup)
    (h : Tick.Ran answers (reconcile now (view s).snapshot) s made report after) :
    ∃ t, (view s).HasTerms t ∧ (view after).IsCalm t made := by
  obtain ⟨setting, opening, calls, mid, progress, result, rfl, hterms, -, hopens, hpass, hcalls⟩ :=
    ran_reconcile hcarries hnodes hrequests h
  obtain ⟨nodes, hlast⟩ := hpass.visitAll hcarries hcalls
  refine ⟨setting.terms, hterms, ?_, ?_, hlast.nodeNames, hlast.requestNames, ?_⟩
  · obtain ⟨m, hm, hrest⟩ := hterms
    exact ⟨m, (hlast.config.trans hopens.config).trans hm, hrest⟩
  · exact hopens.isOpen.imp_left fun hsome => hlast.hasTable.trans hsome
  · rw [hlast.nodes, List.append_nil]
    exact hlast.settled

theorem IsCalm.provides (h : (view s).IsCalm t announced) (hcarries : Carries answers view)
    {now : Timestamp} {report : Report}
    (hran : Tick.Ran answers (reconcile now (view s).snapshot) s made report after) :
    Provides t.clusterPath announced made := by
  obtain ⟨setting, opening, calls, mid, progress, result, rfl, hterms, hpending, hopens, hpass,
    hcalls⟩ := ran_reconcile hcarries h.nodeNames h.requestNames hran
  obtain rfl := h.terms.unique hterms
  obtain ⟨rfl, hmid⟩ := hopens.quiet h.isOpen
  rw [List.nil_append]
  refine hpass.provides hcarries (fun node hnode => hmid ▸ h.settled node hnode) ?_ hcalls
  intro node hnode name uid hname huid request hrequest
  rw [hpending] at hrequest
  obtain ⟨hmem, hwaiting⟩ := List.mem_filter.mp hrequest
  exact (h.settled node hnode name uid hname huid).2.2 request hmem hwaiting

theorem visit_of_isSettled {setting : Setting} {progress : Progress} {node : Node}
    (hmaps : setting.configMaps = c.configMaps)
    (hpending : setting.pending = c.requests.filter SigningRequest.isPending)
    (htable : progress.table = c.table?) (h : c.IsSettled setting.terms [] node) :
    ∃ report, visit setting progress node = .done ⟨progress.table, report⟩ := by
  by_cases hnamed : node.metadata.name.isSome = true ∧ node.metadata.uid.isSome = true
  · obtain ⟨name, hname⟩ := Option.isSome_iff_exists.mp hnamed.1
    obtain ⟨uid, huid⟩ := Option.isSome_iff_exists.mp hnamed.2
    obtain ⟨-, hrests, hrequests⟩ := h name uid hname huid
    have hrests := hrests.resolve_right List.not_mem_nil
    obtain ⟨report, hserve⟩ := serve_of_rests uid htable (by rw [hmaps]) hrests
    have hnone : (setting.pending.filter fun request => request.isOf name uid) = [] := by
      refine List.filter_eq_nil_iff.mpr fun request hrequest => ?_
      rw [hpending] at hrequest
      obtain ⟨hmem, hwaiting⟩ := List.mem_filter.mp hrequest
      simp [hrequests request hmem hwaiting]
    unfold visit
    rw [hname, huid]
    dsimp only
    rw [hserve, Tick.done_bind, hnone]
    exact ⟨report, rfl⟩
  · rw [visit_of_not_named hnamed]
    exact ⟨progress.report, rfl⟩

theorem visitAll_of_isSettled {setting : Setting} {nodes : List Node} (progress : Progress)
    (hmaps : setting.configMaps = c.configMaps)
    (hpending : setting.pending = c.requests.filter SigningRequest.isPending)
    (htable : progress.table = c.table?)
    (h : ∀ node ∈ nodes, c.IsSettled setting.terms [] node) :
    ∃ result, visitAll setting nodes progress = .done result := by
  induction nodes generalizing progress with
  | nil => exact ⟨progress, rfl⟩
  | cons node rest ih =>
    obtain ⟨hnode, hrest⟩ := List.forall_mem_cons.mp h
    obtain ⟨report, hvisit⟩ := visit_of_isSettled hmaps hpending htable hnode
    obtain ⟨result, hresult⟩ := ih ⟨progress.table, report⟩ htable hrest
    rw [visitAll, hvisit, Tick.done_bind, hresult]
    exact ⟨result, rfl⟩

theorem IsCalm.reconcile_done (h : c.IsCalm t []) (now : Timestamp) :
    ∃ report, reconcile now c.snapshot = .done report := by
  obtain ⟨m, hm, hnetworking, hpath⟩ := h.terms
  have hfind : (c.snapshot.configMaps.find? fun m => m.isNamed Names.clusterConfig) = some m := hm
  have hopening (report : Report) :
      tableOf c.snapshot t.networking report = .done ⟨c.table?, report⟩ := by
    have htable : (c.snapshot.configMaps.find? fun m => m.isNamed Names.allocations) = c.table? :=
      rfl
    unfold tableOf
    rw [htable]
    cases hfound : c.table? with
    | some found => rfl
    | none =>
      have hmanual := h.isOpen.resolve_left (by simp [hfound])
      simp only [hmanual]
      rfl
  let setting : Setting := {
    now
    clusterPath := t.clusterPath
    networking := t.networking
    configMaps := c.configMaps
    pending := c.requests.filter SigningRequest.isPending }
  let start : Progress := ⟨c.table?, { nodesSeen := c.nodes.length }⟩
  have hsettled : ∀ node ∈ c.nodes, c.IsSettled setting.terms [] node := h.settled
  obtain ⟨result, hresult⟩ := visitAll_of_isSettled start rfl rfl rfl hsettled
  refine ⟨result.report, ?_⟩
  unfold reconcile
  rw [hfind]
  dsimp only
  rw [hnetworking, Tick.ofExcept, Tick.done_bind, hopening, Tick.done_bind, hpath]
  change (visitAll setting c.nodes start >>= _) = _
  rw [hresult]
  rfl

/-- Ticks converge. If two of them succeed one after the other, each over what the cluster holds when
it begins, the second one only gives addresses to nodes that the first one announced, and a third
one finds nothing to do. -/
theorem ticks_converge (hcarries : Carries answers view) {start mid last : σ}
    {now later : Timestamp} {first second : Report}
    (hnodes : ((view start).nodes.filterMap (·.metadata.name)).Nodup)
    (hrequests : ((view start).requests.filterMap (·.metadata.name)).Nodup)
    (hfirst : (reconcile now (view start).snapshot).run answers start = (.ok first, mid))
    (hsecond : (reconcile later (view mid).snapshot).run answers mid = (.ok second, last)) :
    (∃ m, (view start).config? = some m ∧
      Provides m.metadata.path ((reconcile now (view start).snapshot).calls answers start)
        ((reconcile later (view mid).snapshot).calls answers mid)) ∧
    ∀ latest, (reconcile latest (view last).snapshot).calls answers last = [] ∧
      ∃ third, (reconcile latest (view last).snapshot).run answers last = (.ok third, last) := by
  have hfirst := Tick.ran_of_run hfirst
  have hsecond := Tick.ran_of_run hsecond
  obtain ⟨t, ⟨m, hm, -, hpath⟩, hcalm⟩ := isCalm_of_ran hcarries hnodes hrequests hfirst
  have hprovides := hcalm.provides hcarries hsecond
  obtain ⟨t', hterms, hlast⟩ := isCalm_of_ran hcarries hcalm.nodeNames hcalm.requestNames hsecond
  obtain rfl := hcalm.terms.unique hterms
  refine ⟨⟨m, hm, hpath ▸ hprovides⟩, fun latest => ?_⟩
  have hrest : (view last).IsCalm t [] := by
    refine { hlast with settled := fun node hnode name uid hname huid => ?_ }
    obtain ⟨htold, hrests, hrequests⟩ := hlast.settled node hnode name uid hname huid
    exact ⟨htold, .inl (hrests.resolve_right (hprovides.not_mem name)), hrequests⟩
  obtain ⟨third, hthird⟩ := hrest.reconcile_done latest
  rw [hthird]
  exact ⟨rfl, third, rfl⟩

theorem exists_ok_of_isSome {ε α σ : Type} {x : Except ε α × σ}
    (h : x.1.toOption.isSome = true) : ∃ value, x = (.ok value, x.2) := by
  obtain ⟨_ | value, state⟩ := x
  · cases h
  · exact ⟨value, rfl⟩

def fresh : Cluster where
  nodes := [{ metadata := {
    name := some "n"
    uid := some "1"
    annotations := some (Dict.empty.insert Names.publicKeyNote "K") } }]
  configMaps := [Snapshot.smallCluster]
  requests := [{
    metadata := { name := some "r", owners := some [⟨"v1", none, none, "Node", "n", "1"⟩] }
    spec := { username := some (Names.serviceAccount "n"), usages := some ["server auth"] } }]

def tick (c : Cluster) : List Call × Except Failure Report × Cluster :=
  let tick := reconcile { seconds := 0 } c.snapshot
  (tick.calls obey c, tick.run obey c)

theorem ticks_converge_of_fresh :
    let mid := fresh.tick.2.2
    let last := mid.tick.2.2
    (∃ report, fresh.tick.2 = (.ok report, mid)) ∧ (∃ report, mid.tick.2 = (.ok report, last)) ∧
      mid.tick.1 ≠ [] ∧
      (∃ m, fresh.config? = some m ∧ Provides m.metadata.path fresh.tick.1 mid.tick.1) ∧
      last.tick.1 = [] ∧ ∃ report, last.tick.2 = (.ok report, last) := by
  intro mid last
  obtain ⟨first, hfirst⟩ : ∃ report, fresh.tick.2 = (.ok report, mid) :=
    exists_ok_of_isSome (by decide +kernel)
  obtain ⟨second, hsecond⟩ : ∃ report, mid.tick.2 = (.ok report, last) :=
    exists_ok_of_isSome (by decide +kernel)
  obtain ⟨hprovides, hthird⟩ :=
    ticks_converge carries_obey (by decide) (by decide) hfirst hsecond
  exact ⟨⟨first, hfirst⟩, ⟨second, hsecond⟩, by decide +kernel, hprovides, hthird _⟩

end Cluster

end TunnelFleet
