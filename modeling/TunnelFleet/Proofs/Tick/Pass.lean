import TunnelFleet.Proofs.Tick.Served

namespace TunnelFleet

namespace Cluster

/-- Nothing is left to do for a node after some calls, unless one of them told it that it has no
config map yet. -/
def IsSettled (t : Terms) (c : Cluster) (made : List Call) (node : Node) : Prop :=
  ∀ name uid, node.metadata.name = some name → node.metadata.uid = some uid →
    c.IsTold t node name ∧
      (c.Rests t node name ∨ .annotate name (pathNotes t.clusterPath none) ∈ made) ∧
      ∀ request ∈ c.requests, request.isPending = true → request.isOf name uid = false

theorem IsSettled.of_keeps {t : Terms} {c after : Cluster} {made more : List Call} {node : Node}
    {name : String} (h : c.IsSettled t made node) (hkeeps : Keeps t name c after)
    (hne : node.metadata.name ≠ some name) (hmore : made ⊆ more) :
    after.IsSettled t more node := by
  intro own uid hown huid
  obtain ⟨htold, hrests, hrequests⟩ := h own uid hown huid
  have hname : own ≠ name := fun heq => hne (heq ▸ hown)
  refine ⟨htold.of_keeps hkeeps hname, ?_, fun request hrequest hpending => ?_⟩
  · exact hrests.imp (fun hrests => hrests.of_keeps hkeeps hname) fun hmem => hmore hmem
  · exact hrequests request (hkeeps.pending request hrequest hpending) hpending

end Cluster

namespace Reconcile

open Cluster

inductive Provides (clusterPath : String) (announced : List Call) : List Call → Prop
  | nil : Provides clusterPath announced []
  | cons {name : String} {group rest : List Call} (hgroup : IsProvision clusterPath name group)
      (hannounced : .annotate name (pathNotes clusterPath none) ∈ announced)
      (hrest : Provides clusterPath announced rest) : Provides clusterPath announced (group ++ rest)

theorem Provides.not_mem {clusterPath : String} {announced made : List Call}
    (h : Provides clusterPath announced made) (name : String) :
    .annotate name (pathNotes clusterPath none) ∉ made := by
  induction h with
  | nil => exact List.not_mem_nil
  | @cons other group rest hgroup _ _ ih =>
    intro hmem
    rcases List.mem_append.mp hmem with hmem | hmem
    · cases hgroup with
      | reused uid row networking router hm =>
        simp [(pathNotes_some_ne_none clusterPath _).symm] at hmem
      | allocated old table uid row networking router hm =>
        simp [(pathNotes_some_ne_none clusterPath _).symm] at hmem
    · exact ih hmem

variable {σ : Type} {answers : Tick.Answers σ} {view : σ → Cluster} {s after : σ}
  {made : List Call} {setting : Setting}

theorem ran_approveAll (hcarries : Carries answers view) {now : Timestamp}
    {requests : List SigningRequest} {report result : Report}
    (hnames : ((view s).requests.filterMap (·.metadata.name)).Nodup)
    (h : Tick.Ran answers (approveAll now requests report) s made result after) :
    made = requests.map (fun request => .approve (request.approved now)) ∧
      ∃ left, view after = { view s with requests := left } ∧
        KeepsRequests (view s) (view after) ∧
        ∀ waiting ∈ left, waiting.isPending = true → ∀ request ∈ requests,
          waiting.metadata.name ≠ request.metadata.name := by
  induction requests generalizing s made report with
  | nil =>
    obtain ⟨rfl, rfl, rfl⟩ := h.of_pure
    exact ⟨rfl, (view after).requests, rfl, .of_eq rfl, fun _ _ _ => List.forall_mem_nil _⟩
  | cons request rest ih =>
    obtain ⟨granting, _, mid, others, rfl, hgranting, hothers⟩ := h.of_bind
    obtain ⟨rfl, hgranted⟩ := hgranting.of_call (.approve _)
    obtain ⟨hsome, -, hmid⟩ := hcarries _ _ _ _ hgranted
    have hkeeps : KeepsRequests (view s) (view mid) :=
      hmid ▸ keepsRequests_answered (view s) request now
    have hmidNames : ((view mid).requests.filterMap (·.metadata.name)).Nodup := by
      rw [hkeeps.requestNames]
      exact hnames
    obtain ⟨rfl, left, hleft, hrest, hwaiting⟩ := ih hmidNames hothers
    refine ⟨rfl, left, ?_, hkeeps.trans hrest, ?_⟩
    · rw [hleft, hmid]
      rfl
    · intro waiting hmem hpending
      refine List.forall_mem_cons.mpr ⟨?_, hwaiting waiting hmem hpending⟩
      have hbefore := hrest.pending waiting (hleft ▸ hmem) hpending
      rw [hmid] at hbefore
      exact (pending_answered hnames hsome hbefore hpending).2

theorem visit_of_not_named {node : Node} {progress : Progress}
    (h : ¬ (node.metadata.name.isSome = true ∧ node.metadata.uid.isSome = true)) :
    visit setting progress node = pure progress := by
  unfold visit
  split
  next name uid hname huid => exact absurd ⟨by simp [hname], by simp [huid]⟩ h
  next => rfl

structure Pass (setting : Setting) (start c : Cluster) (made : List Call) (done todo : List Node)
    (progress : Progress) : Prop where
  config : c.config? = start.config?
  hasTable : c.table?.isSome = start.table?.isSome
  table : progress.table = c.table?
  nodes : c.nodes = done ++ todo
  nodeNames : (c.nodes.filterMap (·.metadata.name)).Nodup
  requestNames : (c.requests.filterMap (·.metadata.name)).Nodup
  paths : ∀ node ∈ todo, ∀ name, node.metadata.name = some name →
    NodeConfig.path? setting.configMaps name = NodeConfig.path? c.configMaps name
  pending : ∀ request ∈ c.requests, request.isPending = true → request ∈ setting.pending
  settled : ∀ node ∈ done, c.IsSettled setting.terms made node

namespace Pass

variable {start : Cluster} {before : List Call} {done todo : List Node} {node : Node}
  {progress result : Progress}

theorem ran_visit (hcarries : Carries answers view) {name uid : String}
    (hpass : Pass setting start (view s) before done (node :: todo) progress)
    (hname : node.metadata.name = some name) (huid : node.metadata.uid = some uid)
    (h : Tick.Ran answers (visit setting progress node) s made result after) :
    ∃ (mid : σ) (calls : List Call) (left : List SigningRequest),
      (view s).Served setting.terms node name uid calls (view mid) ∧
      made = calls ++ ((setting.pending.filter fun request => request.isOf name uid).map
        fun request => .approve (request.approved setting.now)) ∧
      view after = { view mid with requests := left } ∧
      Keeps setting.terms name (view s) (view after) ∧ result.table = (view after).table? ∧
      ∀ waiting ∈ left, waiting.isPending = true → waiting.isOf name uid = false := by
  unfold visit at h
  rw [hname, huid] at h
  obtain ⟨calls, served, mid, granting, rfl, hserve, hgranting⟩ := h.of_bind
  obtain ⟨approvals, report, last, nothing, rfl, happrove, hlast⟩ := hgranting.of_bind
  obtain ⟨rfl, rfl, rfl⟩ := hlast.of_pure
  have hpath := hpass.paths node List.mem_cons_self name hname
  obtain ⟨hserved, htable⟩ := ran_serve hcarries hpass.table hpath hserve
  have hmidNames : ((view mid).requests.filterMap (·.metadata.name)).Nodup := by
    rw [hserved.keeps.requestNames]
    exact hpass.requestNames
  obtain ⟨rfl, left, hleft, hkeeps, hwaiting⟩ := ran_approveAll hcarries hmidNames happrove
  have hall : Keeps setting.terms name (view s) (view after) := by
    rw [hleft] at hkeeps ⊢
    exact hserved.keeps.trans (hkeeps.keeps setting.terms name)
  refine ⟨mid, calls, left, hserved, by rw [List.append_nil], hleft, hall, ?_, ?_⟩
  · rw [hleft]
    exact htable
  · intro waiting hmem hpending
    by_contra hof
    have hrequest := hall.pending waiting (hleft ▸ hmem) hpending
    have hmem' : waiting ∈ setting.pending.filter fun request => request.isOf name uid :=
      List.mem_filter.mpr ⟨hpass.pending waiting hrequest hpending, by simpa using hof⟩
    exact hwaiting waiting hmem hpending waiting hmem' rfl

theorem visit (hcarries : Carries answers view)
    (hpass : Pass setting start (view s) before done (node :: todo) progress)
    (h : Tick.Ran answers (visit setting progress node) s made result after) :
    (∃ served, Pass setting start (view after) (before ++ made) (done ++ [served]) todo result) ∧
      ∀ other ∈ todo, ∀ announced, (view s).IsSettled setting.terms announced other →
        (view after).IsSettled setting.terms announced other := by
  by_cases hnamed : node.metadata.name.isSome = true ∧ node.metadata.uid.isSome = true
  · obtain ⟨hname, huid⟩ := hnamed
    obtain ⟨name, hname⟩ := Option.isSome_iff_exists.mp hname
    obtain ⟨uid, huid⟩ := Option.isSome_iff_exists.mp huid
    obtain ⟨mid, calls, left, hserved, rfl, hafter, hkeeps, htable, hwaiting⟩ :=
      hpass.ran_visit hcarries hname huid h
    have hnames := hpass.nodeNames
    obtain ⟨served, hmid, hservedName, hservedUid, htold, hrests⟩ :=
      hserved.exists_node hpass.nodes hname hnames
    rw [hpass.nodes] at hnames
    obtain ⟨hdone, htodo⟩ := name_ne_of_nodup (fun node : Node => node.metadata.name) hnames hname
    refine ⟨⟨served, ?_⟩, fun other hother announced hsettled =>
      hsettled.of_keeps hkeeps (htodo other hother) (List.Subset.refl _)⟩
    refine ⟨hkeeps.config.trans hpass.config, hkeeps.hasTable.trans hpass.hasTable, htable, ?_, ?_,
      ?_, fun other hother own hown => ?_, fun request hrequest hpending => ?_, fun other hother => ?_⟩
    · rw [hafter, List.append_assoc]
      exact hmid
    · rw [hkeeps.nodeNames]
      exact hpass.nodeNames
    · rw [hkeeps.requestNames]
      exact hpass.requestNames
    · have hne : own ≠ name := fun heq => htodo other hother (heq ▸ hown)
      rw [hpass.paths other (List.mem_cons_of_mem _ hother) own hown, hkeeps.paths own hne]
    · exact hpass.pending request (hkeeps.pending request hrequest hpending) hpending
    · rcases List.mem_append.mp hother with hother | hother
      · exact (hpass.settled other hother).of_keeps hkeeps (hdone other hother)
          (List.subset_append_left _ _)
      · obtain rfl := List.mem_singleton.mp hother
        intro own ownUid hown hownUid
        obtain rfl := Option.some.inj ((hservedName.trans hname).symm.trans hown)
        obtain rfl := Option.some.inj ((hservedUid.trans huid).symm.trans hownUid)
        rw [hafter]
        refine ⟨htold, hrests.imp id ?_, hwaiting⟩
        rintro rfl
        simp
  · rw [visit_of_not_named hnamed] at h
    obtain ⟨rfl, rfl, rfl⟩ := h.of_pure
    refine ⟨⟨node, { hpass with nodes := ?_, paths := ?_, settled := ?_ }⟩, fun _ _ _ => id⟩
    · rw [hpass.nodes, List.append_assoc]
      rfl
    · exact fun other hother => hpass.paths other (List.mem_cons_of_mem _ hother)
    · intro other hother
      rw [List.append_nil]
      rcases List.mem_append.mp hother with hother | hother
      · exact hpass.settled other hother
      · obtain rfl := List.mem_singleton.mp hother
        intro name uid hname huid
        exact absurd ⟨by simp [hname], by simp [huid]⟩ hnamed

theorem visitAll (hcarries : Carries answers view)
    (hpass : Pass setting start (view s) before done todo progress)
    (h : Tick.Ran answers (visitAll setting todo progress) s made result after) :
    ∃ nodes, Pass setting start (view after) (before ++ made) nodes [] result := by
  induction todo generalizing s before done progress made with
  | nil =>
    obtain ⟨rfl, rfl, rfl⟩ := h.of_pure
    exact ⟨done, by rwa [List.append_nil]⟩
  | cons node rest ih =>
    obtain ⟨calls, visited, mid, others, rfl, hvisit, hothers⟩ := h.of_bind
    obtain ⟨⟨served, hnext⟩, -⟩ := hpass.visit hcarries hvisit
    rw [← List.append_assoc]
    exact ih hnext hothers

theorem provides (hcarries : Carries answers view) {announced : List Call}
    (hpass : Pass setting start (view s) before done todo progress)
    (hsettled : ∀ node ∈ todo, (view s).IsSettled setting.terms announced node)
    (hpending : ∀ node ∈ todo, ∀ name uid, node.metadata.name = some name →
      node.metadata.uid = some uid → ∀ request ∈ setting.pending, request.isOf name uid = false)
    (h : Tick.Ran answers (Reconcile.visitAll setting todo progress) s made result after) :
    Provides setting.clusterPath announced made := by
  induction todo generalizing s before done progress made with
  | nil =>
    obtain ⟨rfl, -, -⟩ := h.of_pure
    exact .nil
  | cons node rest ih =>
    obtain ⟨calls, visited, mid, others, rfl, hvisit, hothers⟩ := h.of_bind
    obtain ⟨⟨served, hnext⟩, hkept⟩ := hpass.visit hcarries hvisit
    have hrest : Provides setting.clusterPath announced others :=
      ih hnext (fun other hother => hkept other hother announced
        (hsettled other (List.mem_cons_of_mem _ hother)))
        (fun other hother => hpending other (List.mem_cons_of_mem _ hother)) hothers
    by_cases hnamed : node.metadata.name.isSome = true ∧ node.metadata.uid.isSome = true
    · obtain ⟨name, hname⟩ := Option.isSome_iff_exists.mp hnamed.1
      obtain ⟨uid, huid⟩ := Option.isSome_iff_exists.mp hnamed.2
      obtain ⟨_, group, _, hserved, rfl, -⟩ := hpass.ran_visit hcarries hname huid hvisit
      have hnone : (setting.pending.filter fun request => request.isOf name uid) = [] :=
        List.filter_eq_nil_iff.mpr fun request hrequest => by
          simp [hpending node List.mem_cons_self name uid hname huid request hrequest]
      rw [hnone, List.map_nil, List.append_nil]
      obtain ⟨htold, hrests, -⟩ := hsettled node List.mem_cons_self name uid hname huid
      rcases hserved.of_isTold htold with rfl | hgroup
      · exact hrest
      · rcases hrests with hrests | hannounced
        · obtain rfl := hserved.of_rests hrests
          exact hrest
        · exact .cons hgroup hannounced hrest
    · rw [visit_of_not_named hnamed] at hvisit
      obtain ⟨rfl, -, -⟩ := hvisit.of_pure
      exact hrest

end Pass

end Reconcile

end TunnelFleet
