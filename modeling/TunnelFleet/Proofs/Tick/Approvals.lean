import Mathlib.Data.List.FinRange
import Mathlib.Data.List.Nodup
import TunnelFleet.Proofs.Tick.Order

namespace TunnelFleet

theorem Names.serviceAccount_inj {node other : String}
    (h : serviceAccount node = serviceAccount other) : node = other :=
  (String.append_right_inj _).mp h

namespace SigningRequest

/-- What a node has to ask for, and how, to be granted a serving certificate. Nobody has answered
the request, and its only owner, its account and the node are one and the same. -/
structure IsServingRequestOf (node : Node) (request : SigningRequest) : Prop where
  owner : ∃ owner, request.metadata.owners = some [owner] ∧ owner.kind = "Node" ∧
    node.metadata.uid = some owner.uid
  account : ∃ name, node.metadata.name = some name ∧
    request.spec.username = some ("system:serviceaccount:kube-system:node." ++ name)
  usage : ∃ usages, request.spec.usages = some usages ∧ "server auth" ∈ usages
  unanswered : ∀ status, request.status = some status →
    status.certificate = none ∧ status.conditions.getD [] = []

/-- A request with nothing changed but its status, which says that it is approved. -/
structure IsGranted (request granted : SigningRequest) : Prop where
  metadata : granted.metadata = request.metadata
  spec : granted.spec = request.spec
  status : ∃ condition,
    granted.status = some { certificate := none, conditions := some [condition] } ∧
      condition.kind = "Approved" ∧ condition.status = "True"

theorem isGranted_approved (request : SigningRequest) (now : Timestamp) :
    request.IsGranted (request.approved now) :=
  ⟨rfl, rfl, _, rfl, rfl, rfl⟩

theorem isAnswered_eq_false_iff {request : SigningRequest} :
    request.isAnswered = false ↔ ∀ status, request.status = some status →
      status.certificate = none ∧ status.conditions.getD [] = [] := by
  unfold isAnswered
  cases request.status with
  | none => simp
  | some status =>
    rcases status with ⟨_ | certificate, _ | conditions⟩ <;> simp

theorem isServingRequestOf_iff {node : Node} {name uid : String} {request : SigningRequest}
    (hname : node.metadata.name = some name) (huid : node.metadata.uid = some uid) :
    request.IsServingRequestOf node ↔ (request.isPending && request.isOf name uid) = true := by
  unfold isPending isOf
  simp only [Bool.and_eq_true, Bool.not_eq_true', beq_iff_eq]
  constructor
  · rintro ⟨⟨owner, howners, hkind, hown⟩, ⟨own, hsame, husername⟩, ⟨usages, husages, hserver⟩,
      hopen⟩
    obtain rfl := Option.some.inj (hname.symm.trans hsame)
    obtain rfl := Option.some.inj (huid.symm.trans hown)
    refine ⟨⟨?_, isAnswered_eq_false_iff.mpr hopen⟩, ⟨?_, husername⟩, ?_⟩
    · simp [Meta.soleOwner?_eq_some_iff.mpr howners, hkind]
    · simp [howners]
    · simpa [husages] using hserver
  · rintro ⟨⟨howner, hopen⟩, ⟨hown, husername⟩, husages⟩
    obtain ⟨owner, hsole, hkind⟩ := (Option.any_eq_true _ _).mp howner
    have howners := Meta.soleOwner?_eq_some_iff.mp hsole
    refine ⟨⟨owner, howners, by simpa using hkind, ?_⟩, ⟨name, hname, husername⟩, ?_,
      isAnswered_eq_false_iff.mp hopen⟩
    · have hown : owner.uid = uid := by simpa [howners] using hown
      rw [huid, hown]
    · obtain ⟨usages, husages, hserver⟩ := (Option.any_eq_true _ _).mp husages
      exact ⟨usages, husages, by simpa using hserver⟩

end SigningRequest

namespace Tick

variable {σ α β : Type} {tick : Tick α}
  {granted more : List SigningRequest}

/-- Whatever the cluster answers, a tick approves these requests one after the other, or only the
first of them if it ends early. -/
def Approves : Tick α → List SigningRequest → Prop
  | .done _, granted => granted = []
  | .fail _, _ => True
  | .ask call next, granted => ∃ rest, granted = call.approved?.toList ++ rest ∧
      ∀ reply, (next reply).Approves rest

theorem Approves.bind {f : α → Tick β} (h : tick.Approves granted)
    (hf : ∀ value, (f value).Approves more) : (tick >>= f).Approves (granted ++ more) := by
  induction tick generalizing granted with
  | done value =>
    obtain rfl : granted = [] := h
    exact hf value
  | fail failure => trivial
  | ask call next ih =>
    obtain ⟨rest, rfl, hrest⟩ := h
    exact ⟨rest ++ more, List.append_assoc _ _ _, fun reply => ih reply (hrest reply)⟩

theorem Approves.map {f : α → Tick β} (h : tick.Approves granted)
    (hf : ∀ value, (f value).Approves []) : (tick >>= f).Approves granted :=
  List.append_nil granted ▸ h.bind hf

theorem Approves.calls (h : tick.Approves granted) (answers : Answers σ) (state : σ) :
    (tick.calls answers state).filterMap Call.approved? <+: granted ∧
      ∀ value last, tick.run answers state = (.ok value, last) →
        (tick.calls answers state).filterMap Call.approved? = granted := by
  induction tick generalizing granted state with
  | done value => exact ⟨List.nil_prefix, fun _ _ _ => h.symm⟩
  | fail failure => exact ⟨List.nil_prefix, fun _ _ hrun => by cases hrun⟩
  | ask call next ih =>
    obtain ⟨rest, rfl, hrest⟩ := h
    have hfirst (later : List Call) : (call :: later).filterMap Call.approved? =
        call.approved?.toList ++ later.filterMap Call.approved? := by
      rw [List.filterMap_cons]
      cases call.approved? <;> rfl
    rw [Tick.calls, run, hfirst]
    rcases answers state call with ⟨fault | reply, mid⟩
    · exact ⟨(List.prefix_append_right_inj _).mpr List.nil_prefix,
        fun _ _ hrun => by cases hrun⟩
    · obtain ⟨hbegin, heq⟩ := ih reply (hrest reply) mid
      exact ⟨(List.prefix_append_right_inj _).mpr hbegin,
        fun value last hrun => congrArg _ (heq value last hrun)⟩

end Tick

namespace Reconcile

variable {setting : Setting} {progress : Progress} {report : Report}

theorem approves_approveAll (now : Timestamp) (requests : List SigningRequest) (report : Report) :
    (approveAll now requests report).Approves (requests.map (·.approved now)) := by
  induction requests generalizing report with
  | nil => rfl
  | cons request rest ih => exact ⟨_, rfl, fun _ => ih _⟩

theorem approves_publish (setting : Setting) (networking : Networking) (name uid : String)
    (row : Allocation) (router : Router) (m : ConfigMap) (report : Report) :
    (publish setting networking name uid row router m report).Approves [] :=
  ⟨[], rfl, fun _ => ⟨[], rfl, fun _ => rfl⟩⟩

theorem Provisions.approves {networking : Networking} {name uid key : String} {m : ConfigMap}
    {tick : Tick Progress} (h : Provisions setting networking name uid key m report tick) :
    tick.Approves [] := by
  cases h with
  | unread => trivial
  | unknown => trivial
  | reused => exact approves_publish ..
  | unsearched => trivial
  | exhausted => rfl
  | allocated => exact ⟨[], rfl, fun _ => approves_publish ..⟩

theorem approves_serve (setting : Setting) (node : Node) (name uid : String) (progress : Progress) :
    (serve setting node name uid progress).Approves [] := by
  unfold serve
  split
  next => exact ⟨[], rfl, fun _ => rfl⟩
  next key _ =>
    split
    next networking m _ _ => exact (provisions setting networking name uid key m _).approves
    next => rfl
  next => rfl

theorem approves_visit (setting : Setting) (progress : Progress) (node : Node) :
    (visit setting progress node).Approves (setting.approvals node) := by
  cases hname : node.metadata.name with
  | none =>
    rw [visit, Setting.approvals, hname]
    rfl
  | some name =>
    cases huid : node.metadata.uid with
    | none =>
      rw [visit, Setting.approvals, hname, huid]
      rfl
    | some uid =>
      rw [visit, Setting.approvals, hname, huid]
      refine (approves_serve setting node name uid progress).bind fun served => ?_
      exact (approves_approveAll _ _ _).map fun _ => rfl

theorem approves_visitAll (setting : Setting) (nodes : List Node) (progress : Progress) :
    (visitAll setting nodes progress).Approves (nodes.flatMap setting.approvals) := by
  induction nodes generalizing progress with
  | nil => rfl
  | cons node rest ih => exact (approves_visit setting progress node).bind fun _ => ih _

theorem approves_tableOf (snapshot : Snapshot) (networking : Option Networking) (report : Report) :
    (tableOf snapshot networking report).Approves [] := by
  unfold tableOf
  split
  · rfl
  · split
    · exact ⟨[], rfl, fun _ => rfl⟩
    · rfl

end Reconcile

namespace Snapshot

variable {snapshot : Snapshot} {node : Node}

def picks (snapshot : Snapshot) (node : Node) : List (Fin snapshot.requests.length) :=
  match node.metadata.name, node.metadata.uid with
  | some name, some uid => (List.finRange _).filter fun i =>
      (snapshot.requests.get i).isPending && (snapshot.requests.get i).isOf name uid
  | _, _ => []

theorem mem_picks {i : Fin snapshot.requests.length} :
    i ∈ snapshot.picks node ↔ (snapshot.requests.get i).IsServingRequestOf node := by
  cases hname : node.metadata.name with
  | none =>
    refine iff_of_false (by simp [picks, hname]) ?_
    rintro ⟨-, ⟨name, hsame, -⟩, -, -⟩
    cases hname.symm.trans hsame
  | some name =>
    cases huid : node.metadata.uid with
    | none =>
      refine iff_of_false (by simp [picks, hname, huid]) ?_
      rintro ⟨⟨owner, -, -, hsame⟩, -, -, -⟩
      cases huid.symm.trans hsame
    | some uid =>
      rw [SigningRequest.isServingRequestOf_iff hname huid, picks, hname, huid]
      exact List.mem_filter.trans (and_iff_right (List.mem_finRange i))

theorem nodup_picks : (snapshot.picks node).Nodup := by
  unfold picks
  split
  · exact (List.nodup_finRange _).filter _
  · exact List.nodup_nil

theorem nodup_flatMap_picks {nodes : List Node}
    (hnames : (nodes.filterMap fun node => node.metadata.name).Nodup) :
    (nodes.flatMap snapshot.picks).Nodup := by
  refine List.nodup_flatMap.mpr ⟨fun _ _ => nodup_picks, ?_⟩
  refine (List.pairwise_filterMap.mp hnames).imp fun {node other} hne i hi hother => ?_
  obtain ⟨name, hname, husername⟩ := (mem_picks.mp hi).account
  obtain ⟨same, hsame, hagain⟩ := (mem_picks.mp hother).account
  exact hne name hname same hsame
    (Names.serviceAccount_inj (Option.some.inj (husername.symm.trans hagain)))

theorem approvals_eq_map_picks (now : Timestamp) (cluster : ConfigMap)
    (networking : Option Networking) (node : Node) :
    (Reconcile.settingOf now snapshot cluster networking).approvals node =
      (snapshot.picks node).map fun i => (snapshot.requests.get i).approved now := by
  cases hname : node.metadata.name with
  | none =>
    rw [Reconcile.Setting.approvals, picks, hname]
    rfl
  | some name =>
    cases huid : node.metadata.uid with
    | none =>
      rw [Reconcile.Setting.approvals, picks, hname, huid]
      rfl
    | some uid =>
      have hget : (snapshot.requests.filter SigningRequest.isPending).filter
          (fun request => request.isOf name uid) =
          ((List.finRange _).filter fun i => (snapshot.requests.get i).isPending &&
            (snapshot.requests.get i).isOf name uid).map snapshot.requests.get := by
        conv_lhs => rw [← List.map_get_finRange snapshot.requests]
        rw [List.filter_filter, List.filter_map]
        simp only [Function.comp_def, Bool.and_comm]
      rw [Reconcile.Setting.approvals, picks, hname, huid]
      dsimp only [Reconcile.settingOf]
      rw [hget, List.map_map]
      rfl

end Snapshot

open Reconcile in
theorem approves_reconcile (now : Timestamp) (snapshot : Snapshot) :
    (reconcile now snapshot).Approves ((snapshot.nodes.flatMap snapshot.picks).map fun i =>
      (snapshot.requests.get i).approved now) := by
  cases hcluster : snapshot.configMaps.find? fun m => m.isNamed Names.clusterConfig with
  | none =>
    rw [reconcile_of_no_cluster now hcluster]
    trivial
  | some cluster =>
    cases hnetworking : networking? cluster with
    | error error =>
      rw [reconcile_of_bad_networking now hcluster hnetworking]
      trivial
    | ok networking =>
      have hall : snapshot.nodes.flatMap (settingOf now snapshot cluster networking).approvals =
          (snapshot.nodes.flatMap snapshot.picks).map fun i =>
            (snapshot.requests.get i).approved now := by
        rw [List.map_flatMap]
        exact congrArg (snapshot.nodes.flatMap ·)
          (funext (Snapshot.approvals_eq_map_picks now cluster networking))
      rw [reconcile_of_cluster now hcluster, hnetworking, Tick.ofExcept, Tick.done_bind, ← hall]
      refine (approves_tableOf _ _ _).bind fun progress => ?_
      exact (approves_visitAll _ _ _).map fun _ => rfl

/-- A tick approves, each in its place in the snapshot, requests of the nodes for serving
certificates and nothing else, and none of them twice. If it does not fail it leaves none out. -/
theorem approvals_are_exact {σ : Type} (answers : Tick.Answers σ) (state : σ) (now : Timestamp)
    {snapshot : Snapshot}
    (hnames : (snapshot.nodes.filterMap fun node => node.metadata.name).Nodup) :
    let tick := reconcile now snapshot
    ∃ picked : List (Fin snapshot.requests.length), picked.Nodup ∧
      List.Forall₂ (fun i granted => (snapshot.requests.get i).IsGranted granted) picked
        ((tick.calls answers state).filterMap Call.approved?) ∧
      (∀ i ∈ picked, ∃ node ∈ snapshot.nodes,
        (snapshot.requests.get i).IsServingRequestOf node) ∧
      ∀ report last, tick.run answers state = (.ok report, last) →
        ∀ i, (∃ node ∈ snapshot.nodes, (snapshot.requests.get i).IsServingRequestOf node) →
          i ∈ picked := by
  intro tick
  let owed := snapshot.nodes.flatMap snapshot.picks
  let made := (tick.calls answers state).filterMap Call.approved?
  obtain ⟨hbegin, hall⟩ := (approves_reconcile now snapshot).calls answers state
  obtain ⟨picked, hpicked, hmade⟩ : ∃ picked, picked <+: owed ∧
      made = picked.map fun i => (snapshot.requests.get i).approved now := by
    refine ⟨owed.take made.length, List.take_prefix _ _, ?_⟩
    rw [List.map_take]
    exact List.prefix_iff_eq_take.mp hbegin
  refine ⟨picked, ?_, ?_, fun i hi => ?_, fun report last hrun i hi => ?_⟩
  · exact (Snapshot.nodup_flatMap_picks hnames).sublist hpicked.sublist
  · change List.Forall₂ _ picked made
    rw [hmade, List.forall₂_map_right_iff]
    exact List.forall₂_same.mpr fun i _ => SigningRequest.isGranted_approved _ now
  · obtain ⟨node, hnode, hpick⟩ := List.mem_flatMap.mp (hpicked.subset hi)
    exact ⟨node, hnode, Snapshot.mem_picks.mp hpick⟩
  · have hmap : picked.map _ = owed.map _ := hmade.symm.trans (hall report last hrun)
    have hlength : picked.length = owed.length := by simpa using congrArg List.length hmap
    obtain ⟨node, hnode, hserving⟩ := hi
    rw [hpicked.eq_of_length hlength]
    exact List.mem_flatMap.mpr ⟨node, hnode, Snapshot.mem_picks.mpr hserving⟩

def SigningRequest.ownedByM (account : String) (status : Option SigningStatus) :
    SigningRequest where
  metadata := { owners := some [⟨"v1", none, none, "Node", "m", "2"⟩] }
  spec := {
    username := some (Names.serviceAccount account)
    usages := some ["digital signature", "server auth"] }
  status := status

/-- Two nodes, and three requests that the second one owns. One comes from the account of the first,
one is to be granted, and one was granted before. -/
def Snapshot.asking : Snapshot where
  nodes := (small "n" "K").nodes ++ [{ metadata := { name := some "m", uid := some "2" } }]
  configMaps := [{ metadata := { name := some Names.clusterConfig } }]
  requests := [.ownedByM "n" none, .ownedByM "m" none,
    .ownedByM "m" (some (SigningRequest.approval { seconds := 0 }))]

theorem approvals_are_exact_asking :
    let tick := reconcile { seconds := 1 } Snapshot.asking
    (Snapshot.asking.nodes.filterMap fun node => node.metadata.name).Nodup ∧
      (∃ report, tick.run Tick.echo () = (.ok report, ())) ∧
      (tick.calls Tick.echo ()).filterMap Call.approved? =
        [(SigningRequest.ownedByM "m" none).approved { seconds := 1 }] ∧
      ∃ picked : List (Fin Snapshot.asking.requests.length), picked.Nodup ∧
        List.Forall₂ (fun i granted => (Snapshot.asking.requests.get i).IsGranted granted) picked
          ((tick.calls Tick.echo ()).filterMap Call.approved?) ∧
        (∀ i ∈ picked, ∃ node ∈ Snapshot.asking.nodes,
          (Snapshot.asking.requests.get i).IsServingRequestOf node) ∧
        ∀ i, (∃ node ∈ Snapshot.asking.nodes,
          (Snapshot.asking.requests.get i).IsServingRequestOf node) → i ∈ picked := by
  intro tick
  have hnames : (Snapshot.asking.nodes.filterMap fun node => node.metadata.name).Nodup := by
    decide
  have hok : (tick.run Tick.echo ()).1.isOk = true := by decide +kernel
  obtain ⟨report, hrun⟩ : ∃ report, tick.run Tick.echo () = (.ok report, ()) := by
    rcases hresult : tick.run Tick.echo () with ⟨failure | report, last⟩
    · rw [hresult] at hok
      cases hok
    · exact ⟨report, rfl⟩
  obtain ⟨picked, hnodup, hgranted, hserving, hall⟩ :=
    approvals_are_exact Tick.echo () { seconds := 1 } hnames
  exact ⟨hnames, ⟨report, hrun⟩, by decide +kernel, picked, hnodup, hgranted, hserving,
    hall report () hrun⟩

end TunnelFleet
