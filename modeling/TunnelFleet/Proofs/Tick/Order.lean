import Mathlib.Data.List.Perm.Basic
import TunnelFleet.Proofs.Ledger.Server
import TunnelFleet.Proofs.Tick.Outcome

namespace TunnelFleet

section Perm

variable {α β : Type} {p : α → Bool} {as bs : List α}

theorem filter_eq_of_perm (h : as.Perm bs) (hone : (as.filter p).length ≤ 1) :
    as.filter p = bs.filter p := by
  have hperm := h.filter p
  match hfound : as.filter p with
  | [] =>
    rw [hfound] at hperm
    exact (List.nil_perm.mp hperm).symm
  | [a] =>
    rw [hfound] at hperm
    exact (List.perm_singleton.mp hperm.symm).symm
  | a :: b :: rest =>
    rw [hfound] at hone
    exact absurd hone (by simp)

theorem length_filter_le_one [BEq β] [LawfulBEq β] {f : α → Option β} {b : β}
    (h : (as.filterMap f).Nodup) (hp : ∀ a, p a = (f a == some b)) :
    (as.filter p).length ≤ 1 := by
  have hcount := List.nodup_iff_count_le_one.mp h b
  rw [List.count_filterMap, List.countP_eq_length_filter] at hcount
  rwa [List.filter_congr fun a _ => hp a]

end Perm

namespace Snapshot

structure Reorders (snapshot other : Snapshot) : Prop where
  nodes : snapshot.nodes.Perm other.nodes
  configMaps : snapshot.configMaps.Perm other.configMaps
  requests : snapshot.requests.Perm other.requests

/-- The names of config maps are distinct, no node has more than one of them, and nodes publish
distinct keys. The names of nodes and of requests may be anything. -/
structure IsDistinct (snapshot : Snapshot) : Prop where
  configMaps : (snapshot.configMaps.filterMap fun m => m.metadata.name).Nodup
  owners : (snapshot.configMaps.filterMap NodeConfig.ownerName?).Nodup
  publicKeys : ((snapshot.nodes.filterMap fun node =>
    node.metadata.note? Names.publicKeyNote).filter fun key => key ≠ "").Nodup

/-- No published key and no field of the table has a carriage return directly before a line feed. -/
structure IsUnix (snapshot : Snapshot) : Prop where
  publicKeys : ∀ node ∈ snapshot.nodes, ∀ key,
    node.metadata.note? Names.publicKeyNote = some key → Text.IsUnix key
  rows : ∀ m ∈ snapshot.configMaps, m.isNamed Names.allocations = true →
    ∀ table, m.table = .ok table → ∀ row ∈ table.rows, row.IsUnix

namespace Reorders

variable {snapshot other : Snapshot}

theorem find?_eq (h : snapshot.Reorders other) (hdistinct : snapshot.IsDistinct) (name : String) :
    (snapshot.configMaps.find? fun m => m.isNamed name) =
      other.configMaps.find? fun m => m.isNamed name := by
  have hone := length_filter_le_one (p := fun m : ConfigMap => m.isNamed name) hdistinct.configMaps
    fun m => rfl
  rw [← List.head?_filter, ← List.head?_filter, filter_eq_of_perm h.configMaps hone]

theorem path?_eq (h : snapshot.Reorders other) (hdistinct : snapshot.IsDistinct) (name : String) :
    NodeConfig.path? snapshot.configMaps name = NodeConfig.path? other.configMaps name := by
  rw [NodeConfig.path?, NodeConfig.path?, filter_eq_of_perm h.configMaps]
  exact length_filter_le_one (b := name) hdistinct.owners fun m => by
    rw [Bool.eq_iff_iff]
    simp

end Reorders

end Snapshot

namespace Reconcile

theorem Setting.of_mem_demands {setting : Setting} {can : Bool} {node : Node}
    {demand : String × String} (h : setting.demand? can node = some demand) :
    node.metadata.note? Names.publicKeyNote = some demand.2 ∧ demand.2 ≠ "" := by
  obtain ⟨⟨name, decision⟩, hdecision, hdemand⟩ := Option.bind_eq_some_iff.mp h
  unfold Setting.decision? at hdecision
  split at hdecision
  next own uid hname huid =>
    obtain ⟨rfl, rfl⟩ := Prod.mk.inj (Option.some.inj hdecision)
    cases hprovision : node.decide setting.clusterPath
        (NodeConfig.path? setting.configMaps own) can with
    | provision key =>
      rw [hprovision] at hdemand
      obtain rfl := Option.some.inj hdemand
      obtain ⟨hnote, hkey, -⟩ := Node.of_decide_provides hprovision
      exact ⟨hnote, hkey⟩
    | announce notes =>
      rw [hprovision] at hdemand
      cases hdemand
    | converged =>
      rw [hprovision] at hdemand
      cases hdemand
  next => cases hdecision

theorem nodup_demands {nodes : List Node} (setting : Setting) (can : Bool)
    (h : ((nodes.filterMap fun node =>
      node.metadata.note? Names.publicKeyNote).filter fun key => key ≠ "").Nodup) :
    ((nodes.filterMap (setting.demand? can)).map Prod.snd).Nodup := by
  rw [List.filter_filterMap, List.Nodup, List.pairwise_filterMap] at h
  rw [List.map_filterMap, List.Nodup, List.pairwise_filterMap]
  refine h.imp fun {node other} hne key hkey otherKey hother => ?_
  obtain ⟨demand, hdemand, rfl⟩ := Option.map_eq_some_iff.mp hkey
  obtain ⟨otherDemand, hotherDemand, rfl⟩ := Option.map_eq_some_iff.mp hother
  obtain ⟨hnote, hkey⟩ := Setting.of_mem_demands hdemand
  obtain ⟨hotherNote, hotherKey⟩ := Setting.of_mem_demands hotherDemand
  exact hne _ (by simp [hnote, hkey]) _ (by simp [hotherNote, hotherKey])

variable {snapshot other : Snapshot} {cluster : ConfigMap} {networking : Option Networking}
  {now : Timestamp}

theorem decision?_eq_of_reorders (h : snapshot.Reorders other) (hdistinct : snapshot.IsDistinct) :
    (settingOf now snapshot cluster networking).decision? =
      (settingOf now other cluster networking).decision? := by
  funext can node
  unfold Setting.decision?
  split
  next name uid hname huid =>
    have hpath : NodeConfig.path? (settingOf now snapshot cluster networking).configMaps name =
        NodeConfig.path? (settingOf now other cluster networking).configMaps name :=
      h.path?_eq hdistinct name
    rw [hpath]
    rfl
  next => rfl

theorem approvals_perm (h : snapshot.Reorders other) (node : Node) :
    ((settingOf now snapshot cluster networking).approvals node).Perm
      ((settingOf now other cluster networking).approvals node) := by
  unfold Setting.approvals
  split
  · exact ((h.requests.filter _).filter _).map _
  · exact .refl _

theorem readTable_isUnix (hunix : snapshot.IsUnix) {table : Table}
    (h : readTable (openTable? snapshot networking) = .ok table) : ∀ row ∈ table.rows, row.IsUnix := by
  unfold openTable? Snapshot.tableMap? at h
  cases hfind : snapshot.configMaps.find? fun m => m.isNamed Names.allocations with
  | some m =>
    rw [hfind] at h
    exact hunix.rows m (List.mem_of_find?_eq_some hfind) (by simpa using List.find?_some hfind) table h
  | none =>
    rw [hfind] at h
    have hempty : table = ⟨[]⟩ := by
      cases hself : networking.any Networking.isSelfProvision with
      | true =>
        rw [hself] at h
        exact Except.ok.inj (h.symm.trans table_emptyTable)
      | false =>
        rw [hself] at h
        exact (Except.ok.inj h).symm
    rw [hempty]
    exact List.forall_mem_nil _

theorem openTable?_eq_of_reorders (h : snapshot.Reorders other) (hdistinct : snapshot.IsDistinct) :
    openTable? snapshot networking = openTable? other networking := by
  rw [openTable?, openTable?, Snapshot.tableMap?, h.find?_eq hdistinct]
  rfl

theorem opening_eq_of_reorders (h : snapshot.Reorders other) (hdistinct : snapshot.IsDistinct) :
    opening snapshot networking = opening other networking := by
  rw [opening, opening, h.nodes.length_eq, Snapshot.tableMap?, h.find?_eq hdistinct]
  rfl

theorem told_eq_of_perm {announced others : List (String × Dict String)}
    {approved granted : List SigningRequest} (h : announced.Perm others)
    (hgranted : approved.Perm granted) : told announced approved = told others granted := by
  rw [told, told, h.length_eq, hgranted.length_eq]

theorem announcements_perm (h : snapshot.Reorders other) (hdistinct : snapshot.IsDistinct)
    (can : Bool) :
    (snapshot.nodes.filterMap ((settingOf now snapshot cluster networking).announcement? can)).Perm
      (other.nodes.filterMap ((settingOf now other cluster networking).announcement? can)) := by
  have hannounce : (settingOf now snapshot cluster networking).announcement? can =
      (settingOf now other cluster networking).announcement? can := by
    funext node
    rw [Setting.announcement?, decision?_eq_of_reorders h hdistinct, Setting.announcement?]
  rw [hannounce]
  exact h.nodes.filterMap _

theorem deal_eq_of_reorders (h : snapshot.Reorders other) (hdistinct : snapshot.IsDistinct)
    (hunix : snapshot.IsUnix) (can : Bool) (routers : List Router) :
    Allocation.deal routers (readTable (openTable? snapshot networking))
        (snapshot.nodes.filterMap ((settingOf now snapshot cluster networking).demand? can)) =
      Allocation.deal routers (readTable (openTable? snapshot networking))
        (other.nodes.filterMap ((settingOf now other cluster networking).demand? can)) := by
  have hdemand : (settingOf now snapshot cluster networking).demand? can =
      (settingOf now other cluster networking).demand? can := by
    funext node
    rw [Setting.demand?, decision?_eq_of_reorders h hdistinct, Setting.demand?]
  rw [← hdemand]
  refine Allocation.deal_perm (fun table htable => readTable_isUnix hunix htable)
    (nodup_demands _ can hdistinct.publicKeys) (fun demand hmem => ?_) (h.nodes.filterMap _)
  obtain ⟨node, hnode, hdemand⟩ := List.mem_filterMap.mp hmem
  exact hunix.publicKeys node hnode _ (Setting.of_mem_demands hdemand).1

end Reconcile

namespace Tick

variable {σ : Type} {answers : Answers σ} {tick again : Tick Report} {state start : σ}

/-- Two ticks either both fail, or they come to the same account, tell the nodes the same, approve the
same requests, and hand out the same new addresses one after the other. -/
structure Agree (answers : Answers σ) (tick again : Tick Report) (state start : σ) : Prop where
  isOk : (∃ report after, tick.run answers state = (.ok report, after)) ↔
    ∃ report after, again.run answers start = (.ok report, after)
  same : ∀ report result after last, tick.run answers state = (.ok report, after) →
    again.run answers start = (.ok result, last) →
    let made := tick.calls answers state
    let others := again.calls answers start
    report = result ∧ (Call.announcements made).Perm (Call.announcements others) ∧
      (made.filterMap Call.approved?).Perm (others.filterMap Call.approved?) ∧
      made.filterMap Call.given? = others.filterMap Call.given?

theorem Fails.not_ok {α : Type} {tick : Tick α} (h : Fails answers tick state) :
    ¬ ∃ value last, tick.run answers state = (.ok value, last) := by
  obtain ⟨failure, last, hrun⟩ := h
  rintro ⟨value, after, hok⟩
  cases hrun.symm.trans hok

theorem Fails.agree (h : Fails answers tick state) (hagain : Fails answers again start) :
    Agree answers tick again state start :=
  ⟨iff_of_false h.not_ok hagain.not_ok,
    fun report _ after _ hrun => (h.not_ok ⟨report, after, hrun⟩).elim⟩

theorem Ran.agree {after last : σ} {made others : List Call} {report result : Report}
    {announced told : List (String × Dict String)} {approved granted : List SigningRequest}
    {given : List (String × String × String)} (h : Ran answers tick state made report after)
    (hagain : Ran answers again start others result last) (hreport : report = result)
    (htallies : Tallies made announced approved given)
    (hothers : Tallies others told granted given) (htold : announced.Perm told)
    (hgranted : approved.Perm granted) : Agree answers tick again state start where
  isOk := iff_of_true ⟨_, _, h.run_eq⟩ ⟨_, _, hagain.run_eq⟩
  same := by
    intro first second _ _ hfirst hsecond
    obtain rfl := Except.ok.inj (Prod.mk.inj (h.run_eq.symm.trans hfirst)).1
    obtain rfl := Except.ok.inj (Prod.mk.inj (hagain.run_eq.symm.trans hsecond)).1
    dsimp only
    rw [h.calls_eq, hagain.calls_eq, htallies.announcements_eq, hothers.announcements_eq,
      htallies.approved, hothers.approved, htallies.given, hothers.given]
    exact ⟨hreport, htold, hgranted, rfl⟩

end Tick

open Reconcile in
/-- The order of a snapshot decides which of the new addresses a node gets, or whether it gets any, and
nothing else. -/
theorem order_decides_who_gets_which {σ : Type} {answers : Tick.Answers σ}
    (hcarries : Tick.CarriesOut answers) {snapshot other : Snapshot}
    (hreorders : snapshot.Reorders other) (hdistinct : snapshot.IsDistinct)
    (hunix : snapshot.IsUnix) (now : Timestamp) (state start : σ) :
    Tick.Agree answers (reconcile now snapshot) (reconcile now other) state start := by
  have hfind := hreorders.find?_eq hdistinct
  have hfound : (other.configMaps.find? fun m => m.isNamed Names.clusterConfig) =
      snapshot.configMaps.find? fun m => m.isNamed Names.clusterConfig := (hfind _).symm
  cases hcluster : snapshot.configMaps.find? fun m => m.isNamed Names.clusterConfig with
  | none =>
    rw [reconcile_of_no_cluster now hcluster, reconcile_of_no_cluster now (hfound.trans hcluster)]
    exact (Tick.fails_fail _).agree (Tick.fails_fail _)
  | some cluster =>
    have hother := hfound.trans hcluster
    cases hnetworking : networking? cluster with
    | error error =>
      rw [reconcile_of_bad_networking now hcluster hnetworking,
        reconcile_of_bad_networking now hother hnetworking]
      exact (Tick.fails_fail _).agree (Tick.fails_fail _)
    | ok networking =>
      let setting := settingOf now snapshot cluster networking
      let can := canProvision setting (openTable? snapshot networking)
      have htick := outcome_reconcile hcarries now state hcluster hnetworking
      have hagain := outcome_reconcile hcarries now start hother hnetworking
      rw [← openTable?_eq_of_reorders hreorders hdistinct] at hagain
      have hdeal := @deal_eq_of_reorders snapshot other cluster networking now hreorders hdistinct
        hunix can setting.routers
      cases hdealt : Allocation.deal setting.routers (readTable (openTable? snapshot networking))
          (snapshot.nodes.filterMap (setting.demand? can)) with
      | none => exact (htick.1 hdealt).agree (hagain.1 (hdeal.symm.trans hdealt))
      | some d =>
        obtain ⟨made, after, hran, htallies⟩ := htick.2 d hdealt
        obtain ⟨others, last, hrest, hothers⟩ := hagain.2 d (hdeal.symm.trans hdealt)
        have htold := @announcements_perm snapshot other cluster networking now hreorders hdistinct can
        have hgranted := hreorders.nodes.flatMap fun node _ =>
          @approvals_perm snapshot other cluster networking now hreorders node
        have hopening := @opening_eq_of_reorders snapshot other networking hreorders hdistinct
        have hreport := congrArg₂ (fun opened shared => opened + d.report + shared) hopening
          (told_eq_of_perm htold hgranted)
        exact hran.agree hrest hreport htallies hothers htold hgranted

def Tick.echo : Tick.Answers Unit
  | _, .create m => (.ok m, ())
  | _, .replace m => (.ok m, ())
  | _, .annotate _ _ => (.ok (), ())
  | _, .approve _ => (.ok (), ())

theorem Tick.carriesOut_echo : Tick.CarriesOut Tick.echo := by
  intro state call
  cases call with
  | create m => exact ⟨m, (), rfl, rfl, rfl, rfl⟩
  | replace m => exact ⟨m, (), rfl, rfl, rfl, rfl⟩
  | annotate node notes => exact ⟨(), (), rfl, trivial⟩
  | approve request => exact ⟨(), (), rfl, trivial⟩

namespace Snapshot

def turned (snapshot : Snapshot) : Snapshot :=
  ⟨snapshot.nodes.reverse, snapshot.configMaps.reverse, snapshot.requests.reverse⟩

theorem reorders_turned (snapshot : Snapshot) : snapshot.Reorders snapshot.turned :=
  ⟨(List.reverse_perm _).symm, (List.reverse_perm _).symm, (List.reverse_perm _).symm⟩

def mixed : Snapshot where
  nodes := (small "n" "K").nodes ++ (small "m" "L").nodes ++
    [{ metadata := { name := some "new", uid := some "2" } }]
  configMaps := [fullCluster,
    Reconcile.withTable Reconcile.emptyTable ⟨[⟨"K", "R", "n", "10.1.0.1", "10.2.0.0/24"⟩]⟩]
  requests := []

end Snapshot

theorem order_decides_who_gets_which_mixed :
    let tick := reconcile { seconds := 0 } Snapshot.mixed
    let again := reconcile { seconds := 0 } Snapshot.mixed.turned
    Tick.Agree Tick.echo tick again () () ∧
      tick.calls Tick.echo () ≠ again.calls Tick.echo () ∧
      (tick.run Tick.echo ()).1 = .ok {
        nodesSeen := 3
        annotationsPatched := 2
        nodeConfigsCreated := 1
        nodesExhausted := 1 } := by
  intro tick again
  have hdistinct : Snapshot.mixed.IsDistinct :=
    ⟨by decide +kernel, by decide +kernel, by decide +kernel⟩
  have hkeys : ∀ node ∈ Snapshot.mixed.nodes,
      (node.metadata.note? Names.publicKeyNote).all fun key => !key.toList.contains '\r' := by
    decide +kernel
  have hunix : Snapshot.mixed.IsUnix := by
    refine ⟨fun node hnode key hkey => ?_, fun m hm hnamed table htable row hrow => ?_⟩
    · have hchars := hkeys node hnode
      rw [hkey] at hchars
      exact Text.isUnix_of_not_mem (by simpa using hchars)
    · rcases List.mem_cons.mp hm with rfl | hm
      · exact absurd hnamed (by decide)
      · obtain rfl := List.mem_singleton.mp hm
        obtain rfl := Except.ok.inj (htable.symm.trans (Reconcile.table_withTable _ _))
        obtain rfl := List.mem_singleton.mp hrow
        refine ⟨?_, ?_, ?_, ?_, ?_⟩ <;> exact Text.isUnix_of_not_mem (by decide +kernel)
  exact ⟨order_decides_who_gets_which Tick.carriesOut_echo (Snapshot.reorders_turned _) hdistinct
    hunix { seconds := 0 } () (), by decide +kernel, by decide +kernel⟩

end TunnelFleet
