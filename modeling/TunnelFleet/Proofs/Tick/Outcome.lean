import TunnelFleet.Proofs.Allocation.Deal
import TunnelFleet.Proofs.Cluster.Keeps
import TunnelFleet.Proofs.Ledger.Table
import TunnelFleet.Proofs.Tick.Account
import TunnelFleet.Proofs.Tick.NodeConfig
import TunnelFleet.Proofs.Tick.Provision

namespace TunnelFleet

/-- What tells one pair of addresses from another: the router that gives them, and both of them. -/
def Allocation.given (row : Allocation) : String × String × String :=
  (row.routerKey, row.nodeIP, row.podNet)

namespace Call

def approved? : Call → Option SigningRequest
  | .approve request => some request
  | _ => none

def given? : Call → Option (String × String × String)
  | .replace m => m.table.toOption.bind fun table => table.rows.getLast?.map Allocation.given
  | _ => none

/-- The patches among some calls that tell nodes of the current paths. A patch directly after the
creation of a node's config map belongs to it and is none of them. -/
def announcements : List Call → List (String × Dict String)
  | [] => []
  | .create m :: .annotate name notes :: rest =>
      if m.isNamed Names.allocations then (name, notes) :: announcements rest
      else announcements rest
  | .annotate name notes :: rest => (name, notes) :: announcements rest
  | _ :: rest => announcements rest

end Call

/-- What some calls come to, whatever is called after them. -/
structure Tallies (made : List Call) (announced : List (String × Dict String))
    (approved : List SigningRequest) (given : List (String × String × String)) : Prop where
  announced : ∀ more, Call.announcements (made ++ more) = announced ++ Call.announcements more
  approved : made.filterMap Call.approved? = approved
  given : made.filterMap Call.given? = given

namespace Tallies

variable {made more : List Call} {announced others : List (String × Dict String)}
  {approved requests : List SigningRequest} {given rows : List (String × String × String)}

theorem nil : Tallies [] [] [] [] :=
  ⟨fun _ => rfl, rfl, rfl⟩

theorem append (h : Tallies made announced approved given)
    (hmore : Tallies more others requests rows) :
    Tallies (made ++ more) (announced ++ others) (approved ++ requests) (given ++ rows) where
  announced := by
    intro last
    rw [List.append_assoc, h.announced, hmore.announced, List.append_assoc]
  approved := by rw [List.filterMap_append, h.approved, hmore.approved]
  given := by rw [List.filterMap_append, h.given, hmore.given]

theorem announcements_eq (h : Tallies made announced approved given) :
    Call.announcements made = announced := by
  have hmade := h.announced []
  rwa [List.append_nil, Call.announcements, List.append_nil] at hmade

theorem annotate (name : String) (notes : Dict String) :
    Tallies [.annotate name notes] [(name, notes)] [] [] :=
  ⟨fun _ => rfl, rfl, rfl⟩

theorem approve (request : SigningRequest) : Tallies [.approve request] [] [request] [] :=
  ⟨fun _ => rfl, rfl, rfl⟩

theorem publish {m : ConfigMap} (h : m.isNamed Names.allocations = false) (name : String)
    (notes : Dict String) : Tallies [.create m, .annotate name notes] [] [] [] := by
  refine ⟨fun more => ?_, rfl, rfl⟩
  simp only [List.cons_append, List.nil_append, Call.announcements, h]
  rfl

theorem bootstrap {m : ConfigMap} (h : m.isNamed Names.allocations = true) :
    Tallies [.create m] [] [] [] := by
  refine ⟨fun more => ?_, rfl, rfl⟩
  cases more with
  | nil => rfl
  | cons call rest => cases call <;> simp [Call.announcements, h]

theorem replace (m : ConfigMap) (table : Table) (row : Allocation) :
    Tallies [.replace (Reconcile.withTable m (table.push row))] [] [] [row.unix.given] := by
  refine ⟨fun _ => rfl, rfl, ?_⟩
  have hread := Reconcile.table_withTable m (table.push row)
  have hlast : (table.push row).unix.rows.getLast? = some row.unix := by
    rw [Table.unix, Table.push, List.map_append]
    exact List.getLast?_concat
  simp [Call.given?, hread, hlast, Except.toOption]

end Tallies

namespace Tick

variable {σ α β : Type} {answers : Answers σ} {state mid : σ} {made : List Call}

def CarriesOut (answers : Answers σ) : Prop :=
  ∀ state call, ∃ reply after, answers state call = (.ok reply, after) ∧ call.Brings reply

def Fails (answers : Answers σ) (tick : Tick α) (state : σ) : Prop :=
  ∃ failure last, tick.run answers state = (.error failure, last)

theorem fails_fail (failure : Failure) : Fails answers (.fail failure : Tick α) state :=
  ⟨failure, state, rfl⟩

theorem Fails.bind {tick : Tick α} (h : Fails answers tick state) (f : α → Tick β) :
    Fails answers (tick >>= f) state := by
  obtain ⟨failure, last, hrun⟩ := h
  refine ⟨failure, last, ?_⟩
  rw [run_bind, hrun]

theorem Ran.fails {tick : Tick α} {f : α → Tick β} {value : α}
    (h : Ran answers tick state made value mid) (hf : Fails answers (f value) mid) :
    Fails answers (tick >>= f) state := by
  obtain ⟨failure, last, hrun⟩ := hf
  refine ⟨failure, last, ?_⟩
  rw [run_bind, h.run_eq]
  exact hrun

end Tick

def Deal.report (d : Deal) : Report where
  annotationsPatched := d.reused + d.rows.length
  allocationsWritten := d.rows.length
  nodeConfigsCreated := d.reused + d.rows.length
  nodesExhausted := d.left

def Deal.given (d : Deal) : List (String × String × String) :=
  d.rows.map fun row => row.unix.given

theorem Deal.report_add (d e : Deal) : (d + e).report = d.report + e.report := by
  simp only [report, add_def, Report.add_def, List.length_append, Report.mk.injEq, true_and, and_true]
  omega

theorem Deal.given_add (d e : Deal) : (d + e).given = d.given ++ e.given :=
  List.map_append

namespace Decision

def announcement? (name : String) : Decision → Option (String × Dict String)
  | .announce notes => some (name, notes)
  | _ => none

def demand? (name : String) : Decision → Option (String × String)
  | .provision key => some (name, key)
  | _ => none

end Decision

namespace Reconcile

namespace Setting

def routers (setting : Setting) : List Router :=
  (setting.networking.map Networking.routers).getD []

/-- What a tick decides for a node, under the name of the node. -/
def decision? (setting : Setting) (can : Bool) (node : Node) : Option (String × Decision) :=
  match node.metadata.name, node.metadata.uid with
  | some name, some _ => some (name,
      node.decide setting.clusterPath (NodeConfig.path? setting.configMaps name) can)
  | _, _ => none

def announcement? (setting : Setting) (can : Bool) (node : Node) : Option (String × Dict String) :=
  (setting.decision? can node).bind fun (name, decision) => decision.announcement? name

def demand? (setting : Setting) (can : Bool) (node : Node) : Option (String × String) :=
  (setting.decision? can node).bind fun (name, decision) => decision.demand? name

def approvals (setting : Setting) (node : Node) : List SigningRequest :=
  match node.metadata.name, node.metadata.uid with
  | some name, some uid =>
      (setting.pending.filter fun request => request.isOf name uid).map (·.approved setting.now)
  | _, _ => []

end Setting

def readTable (table : Option ConfigMap) : Except TableError Table :=
  (table.map ConfigMap.table).getD (.ok ⟨[]⟩)

def told (announced : List (String × Dict String)) (approved : List SigningRequest) : Report where
  annotationsPatched := announced.length
  requestsApproved := approved.length

/-- What a part of a tick does is told by its announcements, its approvals and a deal. It fails if
there is no deal. -/
def Does {σ : Type} (answers : Tick.Answers σ) (setting : Setting) (can : Bool) (report : Report)
    (announced : List (String × Dict String)) (approved : List SigningRequest)
    (tick : Tick Progress) (state : σ) : Option (Deal × Except TableError Table) → Prop
  | none => Tick.Fails answers tick state
  | some (d, table) => ∃ made result last, Tick.Ran answers tick state made result last ∧
      result.report = report + d.report + told announced approved ∧
      readTable result.table = table ∧ canProvision setting result.table = can ∧
      Tallies made announced approved d.given

variable {σ : Type} {answers : Tick.Answers σ} {setting : Setting} {can : Bool} {report : Report}
  {announced others : List (String × Dict String)} {approved requests : List SigningRequest}
  {tick : Tick Progress} {state : σ} {dealt : Option (Deal × Except TableError Table)}
  {progress : Progress} {node : Node} {nodes : List Node} {name uid : String}

theorem Does.after {f : Progress → Tick Progress} {made : List Call} {result : Progress} {mid : σ}
    {d : Deal} (hran : Tick.Ran answers tick state made result mid)
    (hreport : result.report = report + d.report + told announced approved)
    (htallies : Tallies made announced approved d.given)
    (h : Does answers setting can result.report others requests (f result) mid dealt) :
    Does answers setting can report (announced ++ others) (approved ++ requests) (tick >>= f) state
      (dealt.map fun (e, table) => (d + e, table)) := by
  cases dealt with
  | none => exact hran.fails h
  | some dealt =>
    obtain ⟨e, table⟩ := dealt
    obtain ⟨more, final, last, hmore, hfinal, htable, hcan, hlast⟩ := h
    refine ⟨made ++ more, final, last, hran.bind hmore, ?_, htable, hcan, ?_⟩
    · rw [hfinal, hreport, Deal.report_add]
      simp only [told, Report.add_def, List.length_append, Report.mk.injEq]
      omega
    · rw [Deal.given_add]
      exact htallies.append hlast

theorem canProvision_stored (setting : Setting) {sent stored : ConfigMap}
    (h : sent.IsStoredAs stored) :
    canProvision setting (some stored) = canProvision setting (some sent) := by
  rw [canProvision, canProvision, Option.bind_some, Option.bind_some, h.value?_eq]

theorem canProvision_withTable {m : ConfigMap} (h : canProvision setting (some m) = true)
    (table : Table) : canProvision setting (some (withTable m table)) = true := by
  rw [canProvision, Option.bind_some, value?_withTable, (Bool.and_eq_true_iff.mp h).1]
  simpa using table.text_ne_empty

theorem exists_of_canProvision {table : Option ConfigMap} (h : canProvision setting table = true) :
    ∃ networking m, setting.networking = some networking ∧ table = some m := by
  obtain ⟨hsome, htext⟩ := Bool.and_eq_true_iff.mp h
  obtain ⟨networking, hnetworking⟩ := Option.isSome_iff_exists.mp hsome
  cases table with
  | none => cases htext
  | some m => exact ⟨networking, m, hnetworking, rfl⟩

theorem does_publish (hcarries : Tick.CarriesOut answers) (state : σ) (row : Allocation)
    (router : Router) (networking : Networking) (name uid : String) {m : ConfigMap}
    (hcan : canProvision setting (some m) = can) (report : Report) :
    Does answers setting can report [] [] (publish setting networking name uid row router m report)
      state (some ({ reused := 1 }, m.table)) := by
  obtain ⟨created, mid, hcreate, -⟩ :=
    hcarries state (.create (NodeConfig.render name uid row networking router))
  obtain ⟨_, last, hannotate, -⟩ :=
    hcarries mid (.annotate name (pathNotes setting.clusterPath (some created.metadata.path)))
  exact ⟨_, _, last, .ask hcreate (.ask hannotate (.done _ _)), rfl, rfl, hcan,
    .publish (NodeConfig.isNamed_render (by decide)) name _⟩

theorem Provisions.does (hcarries : Tick.CarriesOut answers) (state : σ) {networking : Networking}
    {key : String} {m : ConfigMap} (hcan : canProvision setting (some m) = true)
    (h : Provisions setting networking name uid key m report tick) :
    Does answers setting true report [] [] tick state
      (Allocation.dealAt networking.routers m.table (some (name, key))) := by
  cases h with
  | unread htable =>
    rw [htable]
    exact Tick.fails_fail _
  | unknown htable hrow hrouter =>
    rw [htable, Allocation.dealAt, Allocation.dealOne, hrow]
    dsimp only
    rw [← networking.isSome_router?, hrouter]
    exact Tick.fails_fail _
  | @reused table row router htable hrow hrouter =>
    have hpublish := does_publish hcarries state row router networking name uid hcan report
    rw [htable] at hpublish
    rw [htable, Allocation.dealAt, Allocation.dealOne, hrow]
    dsimp only
    rw [← networking.isSome_router?, hrouter]
    exact hpublish
  | unsearched htable hrow hnext =>
    rw [htable, Allocation.dealAt, Allocation.dealOne, hrow, hnext]
    exact Tick.fails_fail _
  | exhausted htable hrow hnext =>
    rw [htable, Allocation.dealAt, Allocation.dealOne, hrow, hnext]
    exact ⟨[], _, state, .done _ _, rfl, htable, hcan, .nil⟩
  | @allocated table found row router htable hunknown hnext hrow hrouter =>
    obtain ⟨stored, mid, hreplace, hstored⟩ :=
      hcarries state (.replace (withTable m (table.push row)))
    have hstored : (withTable m (table.push row)).IsStoredAs stored := hstored
    have hstill := (canProvision_stored setting hstored).trans (canProvision_withTable hcan _)
    obtain ⟨made, result, last, hran, hreport, htable', hcan', htallies⟩ :=
      does_publish hcarries mid row router networking name uid hstill
        { report with allocationsWritten := report.allocationsWritten + 1 }
    rw [htable, Allocation.dealAt, Allocation.dealOne, hunknown, hnext]
    refine ⟨_, result, last, .ask hreplace hran, hreport, ?_, hcan', ?_⟩
    · rw [htable', hstored.table_eq, table_withTable, hrow]
    · rw [hrow]
      exact (Tallies.replace m table _).append htallies

theorem does_serve (hcarries : Tick.CarriesOut answers) (uid : String) (state : σ)
    {decision : Decision} (hcan : canProvision setting progress.table = can)
    (hdecision : node.decide setting.clusterPath (NodeConfig.path? setting.configMaps name) can =
      decision) :
    Does answers setting can progress.report (decision.announcement? name).toList []
      (serve setting node name uid progress) state
      (Allocation.dealAt setting.routers (readTable progress.table) (decision.demand? name)) := by
  unfold serve
  rw [hcan, hdecision]
  cases decision with
  | announce notes =>
    obtain ⟨_, last, hannotate, -⟩ := hcarries state (.annotate name notes)
    exact ⟨_, _, last, .ask hannotate (.done _ _), rfl, rfl, hcan, .annotate name notes⟩
  | converged => exact ⟨[], progress, state, .done _ _, rfl, rfl, hcan, .nil⟩
  | provision key =>
    obtain ⟨-, -, rfl⟩ := Node.of_decide_provides hdecision
    obtain ⟨networking, m, hnetworking, hm⟩ := exists_of_canProvision hcan
    have hrouters : setting.routers = networking.routers := by
      rw [Setting.routers, hnetworking]
      rfl
    rw [hm] at hcan ⊢
    rw [hnetworking, hrouters]
    exact (provisions setting networking name uid key m progress.report).does hcarries state hcan

theorem exists_ran_approveAll (hcarries : Tick.CarriesOut answers) (now : Timestamp)
    (requests : List SigningRequest) (report : Report) (state : σ) :
    ∃ made last, Tick.Ran answers (approveAll now requests report) state made
        (report + told [] (requests.map (·.approved now))) last ∧
      Tallies made [] (requests.map (·.approved now)) [] := by
  induction requests generalizing report state with
  | nil => exact ⟨[], state, .done _ _, .nil⟩
  | cons request rest ih =>
    obtain ⟨_, mid, happrove, -⟩ := hcarries state (.approve (request.approved now))
    obtain ⟨made, last, hran, htallies⟩ :=
      ih { report with requestsApproved := report.requestsApproved + 1 } mid
    have hreport : ({ report with requestsApproved := report.requestsApproved + 1 } : Report) +
        told [] (rest.map (·.approved now)) =
        report + told [] ((request :: rest).map (·.approved now)) := by
      simp only [told, Report.add_def, List.map_cons, List.length_cons, Report.mk.injEq,
        true_and, and_true]
      omega
    rw [hreport] at hran
    exact ⟨_, last, .ask happrove hran, (Tallies.approve _).append htallies⟩

theorem does_visit (hcarries : Tick.CarriesOut answers) (node : Node) (state : σ)
    (hcan : canProvision setting progress.table = can) :
    Does answers setting can progress.report (setting.announcement? can node).toList
      (setting.approvals node) (visit setting progress node) state
      (Allocation.dealAt setting.routers (readTable progress.table) (setting.demand? can node)) := by
  have hrest : setting.decision? can node = none → setting.approvals node = [] →
      visit setting progress node = .done progress →
      Does answers setting can progress.report (setting.announcement? can node).toList
        (setting.approvals node) (visit setting progress node) state
        (Allocation.dealAt setting.routers (readTable progress.table) (setting.demand? can node)) := by
    intro hnone happrovals hvisit
    rw [Setting.announcement?, Setting.demand?, hnone, happrovals, hvisit]
    exact ⟨[], progress, state, .done _ _, rfl, rfl, hcan, .nil⟩
  cases hname : node.metadata.name with
  | none =>
    exact hrest (by rw [Setting.decision?, hname]) (by rw [Setting.approvals, hname])
      (by rw [visit, hname]; rfl)
  | some name =>
    cases huid : node.metadata.uid with
    | none =>
      exact hrest (by rw [Setting.decision?, hname, huid]) (by rw [Setting.approvals, hname, huid])
        (by rw [visit, hname, huid]; rfl)
    | some uid =>
      obtain ⟨decision, hdecision⟩ : ∃ decision, node.decide setting.clusterPath
          (NodeConfig.path? setting.configMaps name) can = decision := ⟨_, rfl⟩
      have hserve := does_serve hcarries uid state hcan hdecision
      rw [Setting.announcement?, Setting.demand?, Setting.decision?, Setting.approvals, hname, huid,
        visit, hname, huid]
      dsimp only [Option.bind_some]
      rw [hdecision]
      cases hdeal : Allocation.dealAt setting.routers (readTable progress.table)
          (decision.demand? name) with
      | none =>
        rw [hdeal] at hserve
        exact Tick.Fails.bind hserve _
      | some dealt =>
        obtain ⟨d, table⟩ := dealt
        rw [hdeal] at hserve
        obtain ⟨made, served, mid, hran, hreport, htable, hstill, htallies⟩ := hserve
        obtain ⟨more, last, happrove, hmore⟩ := exists_ran_approveAll hcarries setting.now
          (setting.pending.filter fun request => request.isOf name uid) served.report mid
        refine ⟨made ++ (more ++ []), _, last, hran.bind (happrove.bind (.done _ _)), ?_, htable,
          hstill, ?_⟩
        · dsimp only
          rw [hreport]
          simp only [told, Report.add_def, List.length_nil, Nat.add_zero]
        · have hall := htallies.append hmore
          simpa using hall

theorem does_visitAll (hcarries : Tick.CarriesOut answers) (nodes : List Node) (state : σ)
    (hcan : canProvision setting progress.table = can) :
    ∃ dealt, dealt.map Prod.fst = Allocation.deal setting.routers (readTable progress.table)
        (nodes.filterMap (setting.demand? can)) ∧
      Does answers setting can progress.report (nodes.filterMap (setting.announcement? can))
        (nodes.flatMap setting.approvals) (visitAll setting nodes progress) state dealt := by
  -- decisions rest on the snapshot and on `can`, which no write changes
  induction nodes generalizing progress state with
  | nil =>
    exact ⟨some ({}, readTable progress.table), rfl, [], progress, state, .done _ _, rfl, rfl, hcan, .nil⟩
  | cons node rest ih =>
    have hvisit := does_visit hcarries node state hcan
    have hannounced : (node :: rest).filterMap (setting.announcement? can) =
        (setting.announcement? can node).toList ++ rest.filterMap (setting.announcement? can) := by
      rw [List.filterMap_cons]
      cases setting.announcement? can node <;> rfl
    rw [Allocation.deal_filterMap_cons, hannounced, List.flatMap_cons, visitAll]
    cases hdeal : Allocation.dealAt setting.routers (readTable progress.table)
        (setting.demand? can node) with
    | none =>
      rw [hdeal] at hvisit
      exact ⟨none, rfl, Tick.Fails.bind hvisit _⟩
    | some dealt =>
      obtain ⟨d, table⟩ := dealt
      rw [hdeal] at hvisit
      obtain ⟨made, visited, mid, hran, hreport, rfl, hstill, htallies⟩ := hvisit
      obtain ⟨others, hothers, hdoes⟩ := ih mid hstill
      refine ⟨_, ?_, hdoes.after hran hreport htallies⟩
      rw [Option.bind_some]
      dsimp only
      rw [← hothers, Option.map_map, Option.map_map]
      rfl

def openTable? (snapshot : Snapshot) (networking : Option Networking) : Option ConfigMap :=
  snapshot.tableMap?.or (if networking.any Networking.isSelfProvision then some emptyTable else none)

def opening (snapshot : Snapshot) (networking : Option Networking) : Report where
  nodesSeen := snapshot.nodes.length
  tablesBootstrapped :=
    if snapshot.tableMap?.isNone && networking.any Networking.isSelfProvision then 1 else 0

theorem exists_ran_tableOf (hcarries : Tick.CarriesOut answers) (setting : Setting) (snapshot : Snapshot)
    (networking : Option Networking) (state : σ) :
    ∃ made progress last, Tick.Ran answers
        (tableOf snapshot networking { nodesSeen := snapshot.nodes.length }) state made progress
        last ∧
      progress.report = opening snapshot networking ∧
      readTable progress.table = readTable (openTable? snapshot networking) ∧
      canProvision setting progress.table =
        canProvision setting (openTable? snapshot networking) ∧
      Tallies made [] [] [] := by
  have hfind : (snapshot.configMaps.find? fun m => m.isNamed Names.allocations) =
      snapshot.tableMap? := rfl
  unfold tableOf openTable? opening
  rw [hfind]
  cases snapshot.tableMap? with
  | some m => exact ⟨[], _, state, .done _ _, rfl, rfl, rfl, .nil⟩
  | none =>
    cases networking.any Networking.isSelfProvision with
    | false => exact ⟨[], _, state, .done _ _, rfl, rfl, rfl, .nil⟩
    | true =>
      obtain ⟨created, last, hcreate, hstored⟩ := hcarries state (.create emptyTable)
      have hstored : emptyTable.IsStoredAs created := hstored
      exact ⟨_, _, last, .ask hcreate (.done _ _), rfl, hstored.table_eq,
        canProvision_stored setting hstored, .bootstrap (by decide)⟩

theorem outcome_reconcile (hcarries : Tick.CarriesOut answers) (now : Timestamp)
    {snapshot : Snapshot} {cluster : ConfigMap} {networking : Option Networking} (state : σ)
    (hcluster : (snapshot.configMaps.find? fun m => m.isNamed Names.clusterConfig) = some cluster)
    (hnetworking : networking? cluster = .ok networking) :
    let setting := settingOf now snapshot cluster networking
    let opened := openTable? snapshot networking
    let can := canProvision setting opened
    let announced := snapshot.nodes.filterMap (setting.announcement? can)
    let approved := snapshot.nodes.flatMap setting.approvals
    let dealt := Allocation.deal setting.routers (readTable opened)
      (snapshot.nodes.filterMap (setting.demand? can))
    (dealt = none → Tick.Fails answers (reconcile now snapshot) state) ∧
    ∀ d, dealt = some d → ∃ made last, Tick.Ran answers (reconcile now snapshot) state made
        (opening snapshot networking + d.report + told announced approved) last ∧
      Tallies made announced approved d.given := by
  intro setting opened can announced approved dealt
  obtain ⟨first, progress, mid, hopen, hreport, htable, hcan, hnone⟩ :=
    exists_ran_tableOf hcarries setting snapshot networking state
  obtain ⟨last, hlast, hdoes⟩ := does_visitAll hcarries snapshot.nodes mid hcan
  rw [htable] at hlast
  rw [reconcile_of_cluster now hcluster, hnetworking, Tick.ofExcept, Tick.done_bind]
  refine ⟨fun hdealt => ?_, fun d hdealt => ?_⟩
  · obtain rfl := Option.map_eq_none_iff.mp (hlast.trans hdealt)
    exact hopen.fails (Tick.Fails.bind hdoes _)
  · obtain ⟨⟨d, table⟩, rfl, rfl⟩ := Option.map_eq_some_iff.mp (hlast.trans hdealt)
    obtain ⟨made, result, after, hran, hresult, -, -, htallies⟩ := hdoes
    rw [hreport] at hresult
    refine ⟨first ++ (made ++ []), after, hopen.bind (hran.bind (hresult ▸ .done _ _)), ?_⟩
    rw [List.append_nil]
    exact hnone.append htallies

end Reconcile

end TunnelFleet
