import TunnelFleet.Proofs.Ledger.Server
import TunnelFleet.Proofs.Tick.Account
import TunnelFleet.Proofs.Tick.Provision
import TunnelFleet.Proofs.Tick.Report

namespace TunnelFleet

/-- What keeps a node from being given addresses, but for a lack of them. -/
inductive Failure.IsBadData : Failure → Prop
  | table (error : TableError) : IsBadData (.table error)
  | block (role : BlockRole) (text : String) (cause : BlockError) :
      IsBadData (.search (.badBlock role text cause))
  | router (publicKey : String) : IsBadData (.unknownRouter publicKey)

def Node.HasPublished (node : Node) : Prop :=
  ∃ key, node.metadata.note? Names.publicKeyNote = some key ∧ key ≠ ""

namespace Tick

variable {σ α β : Type} {answers : Answers σ} {state mid last : σ} {tick : Tick α}

/-- Nothing but the cluster can end a tick early. -/
def Completes : Tick α → Prop
  | .done _ => True
  | .fail _ => False
  | .ask call next => ∀ reply : call.Reply, (next reply).Completes

theorem Completes.bind {f : α → Tick β} (h : tick.Completes) (hf : ∀ value, (f value).Completes) :
    (tick >>= f).Completes := by
  induction tick with
  | done value => exact hf value
  | fail failure => exact h.elim
  | ask call next ih => exact fun reply => ih reply (h reply)

theorem Completes.of_run {failure : Failure} (h : tick.Completes)
    (hrun : tick.run answers state = (.error failure, last)) :
    ∃ fault, failure = .cluster fault := by
  induction tick generalizing state with
  | done value => cases hrun
  | fail failure => exact h.elim
  | ask call next ih =>
    rw [run] at hrun
    rcases hanswer : answers state call with ⟨fault | reply, mid⟩
    · rw [hanswer] at hrun
      cases hrun
      exact ⟨fault, rfl⟩
    · rw [hanswer] at hrun
      exact ih reply (h reply) hrun

def after (answers : Answers σ) : Nat → Tick α → σ → Tick α × σ
  | 0, tick, state => (tick, state)
  | k + 1, tick, state =>
      after answers k (tick.step answers state).1 (tick.step answers state).2

theorem run_of_refused {call : Call} {next : call.Reply → Tick α} {k : Nat} {fault : ClusterFault}
    (h : after answers k tick state = (.ask call next, mid))
    (hrefused : answers mid call = (.error fault, last)) :
    tick.run answers state = (.error (.cluster fault), last) ∧
      (tick.calls answers state).length = k + 1 := by
  induction k generalizing tick state with
  | zero =>
    obtain ⟨rfl, rfl⟩ := Prod.mk.inj h
    rw [run, calls, hrefused]
    exact ⟨rfl, rfl⟩
  | succ k ih =>
    have hlater := ih h
    cases tick with
    | done value => cases hlater.1
    | fail failure => cases hlater.2
    | ask asked rest =>
      rw [step] at hlater
      rw [run, calls]
      rcases hanswer : answers state asked with ⟨found | reply, between⟩
      · rw [hanswer] at hlater
        cases hlater.2
      · rw [hanswer] at hlater
        exact ⟨hlater.1, congrArg Nat.succ hlater.2⟩

/-- The cluster that refuses one call, after it has answered as many as its state says. -/
def failingOnce (fault : ClusterFault) (answers : Answers σ) : Answers (Option Nat × σ)
  | (none, state), call => ((answers state call).1, none, (answers state call).2)
  | (some 0, state), _ => (.error fault, none, state)
  | (some (k + 1), state), call => ((answers state call).1, some k, (answers state call).2)

/-- Up to the call that is refused, and with it, a tick makes the calls that it makes when this one is
answered. -/
theorem calls_failingOnce (fault : ClusterFault) {k : Nat}
    (h : k < (tick.calls answers state).length) :
    tick.calls (failingOnce fault answers) (some k, state) =
        (tick.calls answers state).take (k + 1) ∧
      (tick.run (failingOnce fault answers) (some k, state)).1 = .error (.cluster fault) := by
  induction tick generalizing state k with
  | done value => cases h
  | fail failure => cases h
  | ask call next ih =>
    cases k with
    | zero =>
      rw [calls, calls, List.take_succ_cons, List.take_zero]
      exact ⟨rfl, rfl⟩
    | succ k =>
      rw [calls, List.length_cons] at h
      rw [calls, calls, run, failingOnce, List.take_succ_cons]
      rcases hanswer : answers state call with ⟨found | reply, mid⟩
      · rw [hanswer] at h
        exact absurd h (by simp)
      · rw [hanswer] at h
        obtain ⟨hcalls, hrun⟩ := ih reply (Nat.lt_of_succ_lt_succ h)
        exact ⟨congrArg _ hcalls, hrun⟩

end Tick

namespace Reconcile

open Tick (Completes)

variable {σ : Type} {answers : Tick.Answers σ} {state last : σ} {setting : Setting}
  {progress : Progress} {node : Node} {nodes : List Node}

theorem completes_approveAll (now : Timestamp) (requests : List SigningRequest) (report : Report) :
    (approveAll now requests report).Completes := by
  induction requests generalizing report with
  | nil => trivial
  | cons request rest ih => exact fun _ => ih _

theorem Provisions.fails_or_completes {networking : Networking} {name uid key : String}
    {m : ConfigMap} {report : Report} {tick : Tick Progress}
    (h : Provisions setting networking name uid key m report tick) :
    (∃ failure, tick = .fail failure ∧ failure.IsBadData) ∨ tick.Completes := by
  cases h with
  | unread => exact .inl ⟨_, rfl, .table _⟩
  | unknown => exact .inl ⟨_, rfl, .router _⟩
  | unsearched => exact .inl ⟨_, rfl, .block _ _ _⟩
  | reused => exact .inr fun _ _ => trivial
  | exhausted => exact .inr trivial
  | allocated => exact .inr fun _ _ _ => trivial

theorem serve_fails_or_completes (setting : Setting) (node : Node) (name uid : String)
    (progress : Progress) :
    (∃ failure, serve setting node name uid progress = .fail failure ∧ failure.IsBadData ∧
        node.HasPublished) ∨
      (serve setting node name uid progress).Completes := by
  unfold serve
  split
  next => exact .inr fun _ => trivial
  next key hdecide =>
    obtain ⟨hnote, hkey, -⟩ := Node.of_decide_provides hdecide
    split
    next networking m _ _ =>
      refine (provisions setting networking name uid key m
        progress.report).fails_or_completes.imp ?_ id
      rintro ⟨failure, hfails, hbad⟩
      exact ⟨failure, hfails, hbad, key, hnote, hkey⟩
    next => exact .inr trivial
  next => exact .inr trivial

/-- A tick ends at a node without a call for it. -/
def FailsAt (setting : Setting) (progress : Progress) (node : Node) (failure : Failure) : Prop :=
  visit setting progress node = .fail failure ∧ failure.IsBadData ∧ node.HasPublished

theorem visit_fails_or_completes (setting : Setting) (progress : Progress) (node : Node) :
    (∃ failure, FailsAt setting progress node failure) ∨
      (visit setting progress node).Completes := by
  unfold FailsAt visit
  split
  next name uid _ _ =>
    rcases serve_fails_or_completes setting node name uid progress with
      ⟨failure, hfails, hbad⟩ | hserve
    · refine .inl ⟨failure, ?_, hbad⟩
      rw [hfails]
      rfl
    · exact .inr (hserve.bind fun served => (completes_approveAll _ _ _).bind fun _ => trivial)
  next => exact .inr trivial

theorem visitAll_failed {failure : Failure}
    (h : (visitAll setting nodes progress).run answers state = (.error failure, last))
    (hcluster : ∀ fault, failure ≠ .cluster fault) :
    ∃ done node rest result, nodes = done ++ node :: rest ∧ FailsAt setting result node failure ∧
      (visitAll setting done progress).run answers state = (.ok result, last) ∧
      (visitAll setting nodes progress).calls answers state =
        (visitAll setting done progress).calls answers state := by
  induction nodes generalizing progress state with
  | nil => cases h
  | cons node rest ih =>
    rw [visitAll, Tick.run_bind] at h
    rw [visitAll, Tick.calls_bind]
    rcases hvisit : (visit setting progress node).run answers state with ⟨found | visited, mid⟩
    · rw [hvisit] at h
      obtain ⟨heq, rfl⟩ := Prod.mk.inj h
      obtain rfl := Except.error.inj heq
      rcases visit_fails_or_completes setting progress node with ⟨other, hfails⟩ | hcompletes
      · rw [hfails.1] at hvisit ⊢
        obtain ⟨heq, rfl⟩ := Prod.mk.inj hvisit
        obtain rfl := Except.error.inj heq
        exact ⟨[], node, rest, progress, rfl, hfails, rfl, rfl⟩
      · obtain ⟨fault, hfault⟩ := hcompletes.of_run hvisit
        exact absurd hfault (hcluster fault)
    · rw [hvisit] at h
      obtain ⟨done, stop, others, result, rfl, hfails, hrun, hcalls⟩ := ih h
      refine ⟨node :: done, stop, others, result, rfl, hfails, ?_, ?_⟩
      · rw [visitAll, Tick.run_bind, hvisit]
        exact hrun
      · rw [visitAll, Tick.calls_bind, hvisit]
        exact congrArg _ hcalls

theorem completes_tableOf (snapshot : Snapshot) (networking : Option Networking)
    (report : Report) : (tableOf snapshot networking report).Completes := by
  unfold tableOf
  split
  · trivial
  · split
    · exact fun _ => trivial
    · trivial

theorem reconcile_failed {now : Timestamp} {snapshot : Snapshot} {cluster : ConfigMap}
    {networking : Option Networking} {failure : Failure}
    (hfound : (snapshot.configMaps.find? fun m => m.isNamed Names.clusterConfig) = some cluster)
    (hnetworking : networking? cluster = .ok networking)
    (h : (reconcile now snapshot).run answers state = (.error failure, last))
    (hcluster : ∀ fault, failure ≠ .cluster fault) :
    failure.IsBadData ∧ ∃ done node rest report, snapshot.nodes = done ++ node :: rest ∧
      node.HasPublished ∧
      (reconcile now { snapshot with nodes := done }).run answers state = (.ok report, last) ∧
      (reconcile now snapshot).calls answers state =
        (reconcile now { snapshot with nodes := done }).calls answers state := by
  have hruns := runsAs_work answers state now hfound hnetworking
  have hwork := hruns.failed h
  rw [hruns.calls]
  rw [work, Tick.run_bind] at hwork
  rcases hopen : (tableOf snapshot networking {}).run answers state with ⟨found | progress, mid⟩
  · rw [hopen] at hwork
    obtain ⟨heq, rfl⟩ := Prod.mk.inj hwork
    obtain ⟨fault, hfault⟩ := (completes_tableOf _ _ _).of_run hopen
    exact absurd (Except.error.inj heq ▸ hfault) (hcluster fault)
  · rw [hopen] at hwork
    obtain ⟨done, node, rest, result, hnodes, hfails, hrun, hcalls⟩ :=
      visitAll_failed hwork hcluster
    -- the table of a tick does not depend on the nodes it goes over
    have hopen' : (tableOf { snapshot with nodes := done } networking {}).run answers state =
        (.ok progress, mid) := hopen
    have hbefore := @runsAs_work { snapshot with nodes := done } _ _ _ answers state now hfound
      hnetworking
    have hdone : (work now { snapshot with nodes := done } cluster networking).run answers state =
        (.ok result, last) := by
      rw [work, Tick.run_bind, hopen']
      exact hrun
    refine ⟨hfails.2.1, done, node, rest, _, hnodes, hfails.2.2, hbefore.succeeded hdone, ?_⟩
    rw [hbefore.calls, work, work, Tick.calls_bind, Tick.calls_bind, hopen, hopen']
    exact congrArg _ hcalls

end Reconcile

open Reconcile in
/-- Why a tick may fail, and what it has done by then if the cluster is not to blame. -/
theorem reconcile_failed_cases {σ : Type} {answers : Tick.Answers σ} {state last : σ}
    {now : Timestamp} {snapshot : Snapshot} {failure : Failure}
    (h : (reconcile now snapshot).run answers state = (.error failure, last)) :
    failure = .noClusterConfig ∨ (∃ error, failure = .networking error) ∨
      (∃ fault, failure = .cluster fault) ∨
      failure.IsBadData ∧ ∃ done node rest report, snapshot.nodes = done ++ node :: rest ∧
        node.HasPublished ∧
        (reconcile now { snapshot with nodes := done }).run answers state = (.ok report, last) ∧
        (reconcile now snapshot).calls answers state =
          (reconcile now { snapshot with nodes := done }).calls answers state := by
  by_cases hfault : ∃ fault, failure = .cluster fault
  · exact .inr (.inr (.inl hfault))
  have hfault : ∀ fault, failure ≠ .cluster fault := fun fault heq => hfault ⟨fault, heq⟩
  cases hcluster : snapshot.configMaps.find? fun m => m.isNamed Names.clusterConfig with
  | none =>
    rw [reconcile_of_no_cluster now hcluster] at h
    cases h
    exact .inl rfl
  | some cluster =>
    cases hnetworking : networking? cluster with
    | error error =>
      rw [reconcile_of_bad_networking now hcluster hnetworking] at h
      cases h
      exact .inr (.inl ⟨error, rfl⟩)
    | ok networking => exact .inr (.inr (.inr (reconcile_failed hcluster hnetworking h hfault)))

open Reconcile in
/-- A failure is never swallowed, and a tick that fails has made the first of its calls and no
others. -/
theorem failures_leave_a_clean_prefix {σ : Type} (answers : Tick.Answers σ) (state : σ)
    (now : Timestamp) (snapshot : Snapshot) :
    let tick := reconcile now snapshot
    let calls := tick.calls answers state
    let cluster? := snapshot.configMaps.find? fun m => m.isNamed Names.clusterConfig
    (∀ k call next mid fault last, Tick.after answers k tick state = (.ask call next, mid) →
      answers mid call = (.error fault, last) →
      tick.run answers state = (.error (.cluster fault), last) ∧ calls.length = k + 1) ∧
    (∀ fault k, k < calls.length →
      tick.calls (Tick.failingOnce fault answers) (some k, state) = calls.take (k + 1) ∧
      (tick.run (Tick.failingOnce fault answers) (some k, state)).1 = .error (.cluster fault)) ∧
    (cluster? = none → calls = [] ∧ tick.run answers state = (.error .noClusterConfig, state)) ∧
    (∀ cluster error, cluster? = some cluster → networking? cluster = .error error →
      calls = [] ∧ tick.run answers state = (.error (.networking error), state)) ∧
    (∀ failure last, tick.run answers state = (.error failure, last) →
      failure ≠ .search .exhausted ∧
      (failure = .noClusterConfig ∨ (∃ error, failure = .networking error) ∨
        (∃ fault, failure = .cluster fault) ∨
        failure.IsBadData ∧ ∃ done node rest report, snapshot.nodes = done ++ node :: rest ∧
          node.HasPublished ∧
          let before := reconcile now { snapshot with nodes := done }
          before.run answers state = (.ok report, last) ∧ calls = before.calls answers state)) ∧
    ∀ report last, tick.run answers state = (.ok report, last) →
      report.Counts calls ∧ report.writes = calls.length := by
  intro tick calls cluster?
  refine ⟨fun k call next mid fault last h hrefused => Tick.run_of_refused h hrefused,
    fun fault k hk => Tick.calls_failingOnce fault hk, fun hcluster => ?_,
    fun cluster error hcluster herror => ?_, fun failure last hrun => ?_,
    fun report last hrun => ?_⟩
  · have htick : tick = .fail .noClusterConfig := reconcile_of_no_cluster now hcluster
    change tick.calls answers state = [] ∧ _
    rw [htick]
    exact ⟨rfl, rfl⟩
  · have htick : tick = .fail (.networking error) := reconcile_of_bad_networking now hcluster herror
    change tick.calls answers state = [] ∧ _
    rw [htick]
    exact ⟨rfl, rfl⟩
  · have hcases := reconcile_failed_cases hrun
    refine ⟨?_, hcases⟩
    rintro rfl
    rcases hcases with hnone | ⟨error, herror⟩ | ⟨fault, hfault⟩ | ⟨hbad, -⟩
    · cases hnone
    · cases herror
    · cases hfault
    · cases hbad
  · have hcounts := report_counts (Tick.ran_of_run hrun)
    exact ⟨hcounts, hcounts.writes_eq⟩

def Snapshot.orphaned : Snapshot where
  nodes := { metadata := { name := some "new", uid := some "2" } } :: (small "n" "K").nodes
  configMaps := [smallCluster,
    Reconcile.withTable Reconcile.emptyTable ⟨[⟨"K", "GONE", "n", "10.9.0.1", "10.9.1.0/24"⟩]⟩]
  requests := []

theorem failures_leave_a_clean_prefix_orphaned :
    let tick := reconcile { seconds := 0 } Snapshot.orphaned
    let cluster : Cluster := ⟨Snapshot.orphaned.nodes, Snapshot.orphaned.configMaps, []⟩
    (tick.run Cluster.answer cluster).1 = .error (.unknownRouter "GONE") ∧
      (tick.calls Cluster.answer cluster).length = 1 ∧
      ((tick.run (Tick.failingOnce (.disconnected .noRoute) Cluster.answer) (some 0, cluster)).1 =
        .error (.cluster (.disconnected .noRoute))) ∧
      ∃ done node rest, Snapshot.orphaned.nodes = done ++ node :: rest ∧
        tick.calls Cluster.answer cluster =
          (reconcile { seconds := 0 } { Snapshot.orphaned with nodes := done }).calls Cluster.answer
            cluster := by
  intro tick cluster
  have hrun : (tick.run Cluster.answer cluster).1 = .error (.unknownRouter "GONE") := by
    decide +kernel
  have hcalls : (tick.calls Cluster.answer cluster).length = 1 := by decide +kernel
  obtain ⟨-, hrefused, -, -, hfailed, -⟩ :=
    failures_leave_a_clean_prefix Cluster.answer cluster { seconds := 0 } Snapshot.orphaned
  have hzero := (hrefused (.disconnected .noRoute) 0 (hcalls ▸ Nat.one_pos)).2
  obtain ⟨-, hnone | ⟨error, herror⟩ | ⟨fault, hfault⟩ | ⟨-, done, node, rest, report, hnodes, -, -,
    hbefore⟩⟩ := hfailed _ _ (Prod.ext hrun rfl)
  · cases hnone
  · cases herror
  · cases hfault
  · exact ⟨hrun, hcalls, hzero, done, node, rest, hnodes, hbefore⟩

end TunnelFleet
