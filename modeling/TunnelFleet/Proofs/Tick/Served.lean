import TunnelFleet.Proofs.Tick.Decision
import TunnelFleet.Proofs.Tick.NodeConfig
import TunnelFleet.Proofs.Tick.Run

namespace TunnelFleet

namespace Reconcile

/-- The calls that give the node of a name its addresses: a row is stored if there is none, the
config map is created, and the node is told where that is. -/
inductive IsProvision (clusterPath name : String) : List Call → Prop
  | reused {m : ConfigMap} (uid : String) (row : Allocation) (networking : Networking)
      (router : Router) (hm : m = NodeConfig.render name uid row networking router) :
      IsProvision clusterPath name
        [.create m, .annotate name (pathNotes clusterPath (some m.metadata.path))]
  | allocated {m : ConfigMap} (old : ConfigMap) (table : Table) (uid : String) (row : Allocation)
      (networking : Networking) (router : Router)
      (hm : m = NodeConfig.render name uid row networking router) :
      IsProvision clusterPath name [.replace (withTable old table), .create m,
        .annotate name (pathNotes clusterPath (some m.metadata.path))]

end Reconcile

namespace Cluster

open Reconcile

/-- How a cluster comes by the row of a key: it has one, or one is stored. -/
inductive Extends (t : Terms) (c : Cluster) (key : String) : List Call → Cluster → Prop
  | found {m : ConfigMap} {table : Table} {row : Allocation} (hm : c.table? = some m)
      (htable : m.table = .ok table) (hrow : table.findKey? key = some row) : Extends t c key [] c
  | stored {m : ConfigMap} {networking : Networking} {table : Table} {free : Allocation}
      (row : Allocation) (version : Nat) (hm : c.table? = some m)
      (hnetworking : t.networking = some networking) (htable : m.table = .ok table)
      (hfree : Allocation.next networking.routers table = .ok free) :
      Extends t c key [.replace (withTable m (table.push row))]
        (c.replaced Names.allocations ((withTable m (table.push row)).withVersion version))

inductive Served (t : Terms) (c : Cluster) (node : Node) (name uid : String) :
    List Call → Cluster → Prop
  | announced (hdecision : c.decision t node name =
        .announce (pathNotes t.clusterPath (NodeConfig.path? c.configMaps name))) :
      Served t c node name uid
        [.annotate name (pathNotes t.clusterPath (NodeConfig.path? c.configMaps name))]
        (c.told name (pathNotes t.clusterPath (NodeConfig.path? c.configMaps name)))
  | provided {key : String} {extension : List Call} {mid : Cluster} {m : ConfigMap}
      (row : Allocation) (networking : Networking) (router : Router) (version : Nat)
      (hdecision : c.decision t node name = .provision key) (hext : c.Extends t key extension mid)
      (hm : m = NodeConfig.render name uid row networking router) :
      Served t c node name uid
        (extension ++ [.create m, .annotate name (pathNotes t.clusterPath (some m.metadata.path))])
        ((mid.added (m.inFleet.withVersion version)).told name
          (pathNotes t.clusterPath (some m.metadata.path)))
  | rests (h : c.Rests t node name) : Served t c node name uid [] c

variable {t : Terms} {c after : Cluster} {node : Node} {name uid key : String} {made : List Call}
  {done todo : List Node}

theorem Extends.nodes (h : c.Extends t key made after) : after.nodes = c.nodes := by
  cases h with
  | found => rfl
  | stored => rfl

theorem Extends.not_isExhausted (h : c.Extends t key made after) : ¬ c.IsExhausted t key := by
  rintro ⟨networking, m, table, hnetworking, hm, htable, hnone, hnext⟩
  cases h with
  | found hold hrows hrow =>
    obtain rfl := Option.some.inj (hold.symm.trans hm)
    obtain rfl := Except.ok.inj (hrows.symm.trans htable)
    cases hrow.symm.trans hnone
  | stored row version hold hfound hrows hfree =>
    obtain rfl := Option.some.inj (hold.symm.trans hm)
    obtain rfl := Except.ok.inj (hrows.symm.trans htable)
    obtain rfl := Option.some.inj (hfound.symm.trans hnetworking)
    cases hfree.symm.trans hnext

theorem Extends.keeps (h : c.Extends t key made after) (hcan : c.canProvision t = true)
    (name : String) : Keeps t name c after := by
  cases h with
  | found => exact .refl t name c
  | stored row version hm hnetworking htable hfree =>
    exact keeps_replaced t c name row version hcan hm hnetworking htable hfree

theorem Served.keeps (h : c.Served t node name uid made after) : Keeps t name c after := by
  cases h with
  | announced hdecision => exact keeps_told t c name _
  | provided row networking router version hdecision hext hm =>
    subst hm
    have hcan := (Node.of_decide_provision hdecision).2.2
    refine ((hext.keeps hcan name).trans (keeps_added t _ ?_ ?_ ?_)).trans (keeps_told t _ name _)
    · rw [ConfigMap.ownerName?_stored, NodeConfig.ownerName?_render]
    · rw [ConfigMap.isNamed_stored, NodeConfig.isNamed_render (by decide)]
    · rw [ConfigMap.isNamed_stored, NodeConfig.isNamed_render (by decide)]
  | rests => exact .refl t name c

theorem nodes_told {notes : Dict String} (hnodes : c.nodes = done ++ node :: todo)
    (hname : node.metadata.name = some name)
    (hnames : (c.nodes.filterMap (·.metadata.name)).Nodup) :
    (c.told name notes).nodes =
      done ++ { node with metadata := node.metadata.annotate notes } :: todo := by
  rw [hnodes] at hnames
  have hdone := (name_ne_of_nodup (fun node : Node => node.metadata.name) hnames hname).1
  simp only [told, hnodes]
  exact updateFirst_append_cons (fun x hx => by simpa using hdone x hx) (by simp [hname])

/-- A node that was served carries the current paths. There is nothing left to do for it, unless it
has no config map and was but told of the cluster's. -/
theorem Served.exists_node (h : c.Served t node name uid made after)
    (hnodes : c.nodes = done ++ node :: todo) (hname : node.metadata.name = some name)
    (hnames : (c.nodes.filterMap (·.metadata.name)).Nodup) :
    ∃ served, after.nodes = done ++ served :: todo ∧
      served.metadata.name = node.metadata.name ∧ served.metadata.uid = node.metadata.uid ∧
      after.IsTold t served name ∧ (after.Rests t served name ∨
        made = [.annotate name (pathNotes t.clusterPath none)]) := by
  cases h with
  | announced hdecision =>
    have htold := isTold_told t c node name rfl
    refine ⟨_, nodes_told hnodes hname hnames, rfl, rfl, htold, ?_⟩
    cases hpath : NodeConfig.path? c.configMaps name with
    | none => exact .inr rfl
    | some path => exact .inl (IsTold.rests (hpath ▸ htold) (by simp [told, hpath]))
  | provided row networking router version hdecision hext hm =>
    subst hm
    rename_i mid
    have hmid : mid.nodes = done ++ node :: todo := hext.nodes.trans hnodes
    have hpath : NodeConfig.path? (mid.added ((NodeConfig.render name uid row networking
        router).inFleet.withVersion version)).configMaps name =
        some (NodeConfig.render name uid row networking router).metadata.path := by
      rw [added, NodeConfig.path?_append_self (by
        rw [ConfigMap.ownerName?_stored, NodeConfig.ownerName?_render])]
      rfl
    have htold := isTold_told t _ node name (congrArg _ hpath.symm)
    refine ⟨_, nodes_told hmid hname ?_, rfl, rfl, htold, .inl (IsTold.rests htold ?_)⟩
    · rw [added, hext.nodes]
      exact hnames
    · exact Option.isSome_iff_exists.mpr ⟨_, hpath⟩
  | rests h => exact ⟨node, hnodes, rfl, rfl, h.isTold, .inl h⟩

theorem Served.of_rests (h : c.Served t node name uid made after) (hrests : c.Rests t node name) :
    made = [] := by
  cases h with
  | announced hdecision =>
    rcases hrests with hconverged | ⟨key, hprovision, -⟩
    · cases hdecision.symm.trans hconverged
    · cases hdecision.symm.trans hprovision
  | provided row networking router version hdecision hext hm =>
    rcases hrests with hconverged | ⟨key, hprovision, hexhausted⟩
    · cases hdecision.symm.trans hconverged
    · obtain rfl := Decision.provision.inj (hdecision.symm.trans hprovision)
      exact absurd hexhausted hext.not_isExhausted
  | rests => rfl

theorem Served.of_isTold (h : c.Served t node name uid made after)
    (htold : c.IsTold t node name) : made = [] ∨ IsProvision t.clusterPath name made := by
  cases h with
  | announced hdecision =>
    have hstale := (Node.of_decide_announce hdecision).1
    cases htold.symm.trans hstale
  | provided row networking router version hdecision hext hm =>
    cases hext with
    | found => exact .inr (.reused uid row networking router hm)
    | stored => exact .inr (.allocated _ _ uid row networking router hm)
  | rests => exact .inl rfl

theorem allocation_of_isExhausted {networking : Networking} {m : ConfigMap} {report : Report}
    (hnetworking : t.networking = some networking) (hm : c.table? = some m)
    (h : c.IsExhausted t key) : allocation networking name key m report = .done none := by
  obtain ⟨found, old, table, hfound, hold, htable, hnone, hnext⟩ := h
  obtain rfl := Option.some.inj (hfound.symm.trans hnetworking)
  obtain rfl := Option.some.inj (hold.symm.trans hm)
  exact allocation_of_exhausted htable hnone hnext name report

theorem serve_of_rests (uid : String) {setting : Setting} {progress : Progress}
    (htable : progress.table = c.table?)
    (hpath : NodeConfig.path? setting.configMaps name = NodeConfig.path? c.configMaps name)
    (h : c.Rests setting.terms node name) :
    ∃ report, serve setting node name uid progress = .done ⟨progress.table, report⟩ := by
  unfold serve
  rw [decide_eq_decision htable hpath]
  rcases h with hconverged | ⟨key, hprovision, hexhausted⟩
  · rw [hconverged]
    exact ⟨progress.report, rfl⟩
  · have ⟨networking, m, _, hnetworking, hm, _⟩ := hexhausted
    have hsome : setting.networking = some networking := hnetworking
    rw [hprovision, hsome, htable, hm]
    dsimp only
    rw [provision, allocation_of_isExhausted hnetworking hm hexhausted, Tick.done_bind]
    exact ⟨_, rfl⟩

section Run

variable {σ : Type} {answers : Tick.Answers σ} {view : σ → Cluster} {s after : σ}
  {made : List Call}

theorem ran_allocation (hcarries : Carries answers view) {networking : Networking}
    {key : String} {m : ConfigMap} {report : Report}
    {found : Option (Allocation × ConfigMap × Report)} (hm : (view s).table? = some m)
    (hnetworking : t.networking = some networking)
    (h : Tick.Ran answers (allocation networking name key m report) s made found after) :
    (found = none ∧ made = [] ∧ after = s ∧ (view s).IsExhausted t key) ∨
    ∃ row stored report, found = some (row, stored, report) ∧
      (view s).Extends t key made (view after) ∧ (view after).table? = some stored := by
  obtain ⟨first, table, mid, rest, rfl, hfirst, hrest⟩ := h.of_bind
  obtain ⟨htable, rfl, rfl⟩ := hfirst.of_ofExcept
  cases hrow : table.findKey? key with
  | some row =>
    rw [hrow] at hrest
    obtain ⟨rfl, rfl, rfl⟩ := hrest.of_pure
    exact .inr ⟨row, m, report, rfl, .found hm htable hrow, hm⟩
  | none =>
    rw [hrow] at hrest
    dsimp only at hrest
    split at hrest
    next hnone =>
      obtain ⟨rfl, rfl, rfl⟩ := hrest.of_pure
      exact .inl ⟨rfl, rfl, rfl, networking, m, table, hnetworking, hm, htable, hrow, hnone⟩
    next => cases hrest
    next free hfree =>
      obtain ⟨calls, stored, last, rest, rfl, hcall, hpure⟩ := hrest.of_bind
      obtain ⟨rfl, hanswer⟩ := hcall.of_call (.replace _)
      obtain ⟨rfl, rfl, rfl⟩ := hpure.of_pure
      obtain ⟨found, old, version, hname, -, -, rfl, hafter⟩ := hcarries _ _ _ _ hanswer
      have hnamed : m.isNamed Names.allocations = true := by
        simpa using List.find?_some hm
      obtain rfl : Names.allocations = found :=
        Option.some.inj ((beq_iff_eq.mp hnamed).symm.trans hname)
      refine .inr ⟨_, _, _, rfl, ?_, ?_⟩
      · rw [hafter]
        exact .stored _ version hm hnetworking htable hfree
      · rw [hafter]
        exact table?_replaced hm hnamed

theorem ran_provision (hcarries : Carries answers view) {setting : Setting} {node : Node}
    {networking : Networking} {key : String} {m : ConfigMap} {report : Report} {result : Progress}
    (hm : (view s).table? = some m) (hnetworking : setting.networking = some networking)
    (hdecision : (view s).decision setting.terms node name = .provision key)
    (h : Tick.Ran answers (provision setting networking name uid key m report) s made result
      after) :
    (view s).Served setting.terms node name uid made (view after) ∧
      result.table = (view after).table? := by
  obtain ⟨first, found, mid, rest, rfl, hfirst, hrest⟩ := h.of_bind
  rcases ran_allocation (t := setting.terms) hcarries hm hnetworking hfirst with
    ⟨rfl, rfl, rfl, hexhausted⟩ | ⟨row, stored, next, rfl, hext, hstored⟩
  · obtain ⟨rfl, rfl, rfl⟩ := hrest.of_pure
    exact ⟨.rests (.inr ⟨key, hdecision, hexhausted⟩), hm.symm⟩
  · dsimp only at hrest
    split at hrest
    next => cases hrest
    next router hrouter =>
      obtain ⟨creation, created, between, others, rfl, hcreation, hothers⟩ := hrest.of_bind
      obtain ⟨telling, _, final, nothing, rfl, htelling, hfinal⟩ := hothers.of_bind
      obtain ⟨rfl, hcreated⟩ := hcreation.of_call (.create _)
      obtain ⟨rfl, htold⟩ := htelling.of_call (.annotate _ _)
      obtain ⟨rfl, rfl, rfl⟩ := hfinal.of_pure
      obtain ⟨_, version, -, -, rfl, hadded⟩ := hcarries _ _ _ _ hcreated
      obtain ⟨-, hview⟩ := hcarries _ _ _ _ htold
      rw [hview, hadded]
      refine ⟨.provided row networking router version hdecision hext rfl, ?_⟩
      have hunnamed : ((NodeConfig.render name uid row networking router).inFleet.withVersion
          version).isNamed Names.allocations = false := by
        rw [ConfigMap.isNamed_stored, NodeConfig.isNamed_render (by decide)]
      exact hstored.symm.trans (table?_added _ hunnamed).symm

theorem ran_serve (hcarries : Carries answers view) {setting : Setting} {node : Node}
    {progress result : Progress} (htable : progress.table = (view s).table?)
    (hpath : NodeConfig.path? setting.configMaps name = NodeConfig.path? (view s).configMaps name)
    (h : Tick.Ran answers (serve setting node name uid progress) s made result after) :
    (view s).Served setting.terms node name uid made (view after) ∧
      result.table = (view after).table? := by
  unfold serve at h
  rw [decide_eq_decision htable hpath] at h
  split at h
  next notes hannounce =>
    obtain ⟨telling, _, final, nothing, rfl, htelling, hfinal⟩ := h.of_bind
    obtain ⟨rfl, htold⟩ := htelling.of_call (.annotate _ _)
    obtain ⟨rfl, rfl, rfl⟩ := hfinal.of_pure
    obtain ⟨-, hview⟩ := hcarries _ _ _ _ htold
    obtain ⟨-, rfl⟩ := Node.of_decide_announce hannounce
    rw [hview]
    exact ⟨.announced hannounce, htable⟩
  next key hprovision =>
    have hcan := (Node.of_decide_provision hprovision).2.2
    obtain ⟨hnetworking, htext⟩ := Bool.and_eq_true_iff.mp hcan
    obtain ⟨networking, hsome⟩ := Option.isSome_iff_exists.mp hnetworking
    have hsome : setting.networking = some networking := hsome
    obtain ⟨text, htext, -⟩ := (Option.any_eq_true _ _).mp htext
    obtain ⟨m, hm, -⟩ := Option.bind_eq_some_iff.mp htext
    rw [hsome, htable, hm] at h
    exact ran_provision hcarries hm hsome hprovision h
  next hconverged =>
    obtain ⟨rfl, rfl, rfl⟩ := h.of_pure
    exact ⟨.rests (.inl hconverged), htable⟩

end Run

end Cluster

end TunnelFleet
