import TunnelFleet.Counters
import TunnelFleet.Proofs.Ledger.Server
import TunnelFleet.Proofs.Tick.Report

namespace TunnelFleet

namespace Tick

variable {σ α : Type} {answers : Answers σ} {state after : σ} {made : List Call} {value : α}

/-- The calls of a tick that the cluster accepts. -/
def accepted (answers : Answers σ) : Tick α → σ → List Call
  | .done _, _ => []
  | .fail _, _ => []
  | .ask call next, state =>
      match answers state call with
      | (.ok reply, after) => call :: (next reply).accepted answers after
      | (.error _, _) => []

theorem Ran.accepted_eq {tick : Tick α} (h : Ran answers tick state made value after) :
    tick.accepted answers state = made := by
  induction h with
  | done value state => rfl
  | ask hanswer hrest ih =>
    rw [accepted, hanswer]
    exact congrArg _ ih

end Tick

/-- What came of a tick: its result, and the calls that the cluster had accepted by then. -/
structure Outcome where
  result : Except Failure Report
  accepted : List Call

namespace Outcome

/-- What comes of ticks one after the other, each over a snapshot of its own. -/
def ofTicks {σ : Type} (answers : Tick.Answers σ) : List (Timestamp × Snapshot) → σ → List Outcome
  | [], _ => []
  | (now, snapshot) :: rest, state =>
      let tick := reconcile now snapshot
      ⟨(tick.run answers state).1, tick.accepted answers state⟩ ::
        ofTicks answers rest (tick.run answers state).2

def isAborted (o : Outcome) : Bool :=
  !o.result.isOk

def completed (o : Outcome) : List Call :=
  if o.isAborted then [] else o.accepted

/-- The calls that were accepted from a tick that failed later. -/
def lost (o : Outcome) : List Call :=
  if o.isAborted then o.accepted else []

theorem length_ofTicks {σ : Type} (answers : Tick.Answers σ)
    (ticks : List (Timestamp × Snapshot)) (state : σ) :
    (ofTicks answers ticks state).length = ticks.length := by
  induction ticks generalizing state with
  | nil => rfl
  | cons tick rest ih => rw [ofTicks, List.length_cons, ih, List.length_cons]

/-- The report of a tick that completes gives account of all that the cluster accepted of it. -/
theorem counts_of_mem_ofTicks {σ : Type} {answers : Tick.Answers σ}
    {ticks : List (Timestamp × Snapshot)} {state : σ} {o : Outcome} {report : Report}
    (ho : o ∈ ofTicks answers ticks state) (hresult : o.result = .ok report) :
    report.Counts o.accepted := by
  induction ticks generalizing state with
  | nil => cases ho
  | cons tick rest ih =>
    obtain ⟨now, snapshot⟩ := tick
    rcases List.mem_cons.mp ho with rfl | ho
    · have hrun : (reconcile now snapshot).run answers state =
          (.ok report, ((reconcile now snapshot).run answers state).2) := by
        rw [← hresult]
      have hran := Tick.ran_of_run hrun
      exact hran.accepted_eq ▸ report_counts hran
    · exact ih ho

theorem count_accepted (kind : WriteKind) (outcomes : List Outcome) :
    kind.count (outcomes.flatMap accepted) =
      kind.count (outcomes.flatMap completed) + kind.count (outcomes.flatMap lost) := by
  induction outcomes with
  | nil => rfl
  | cons o rest ih =>
    simp only [List.flatMap_cons, WriteKind.count_append, ih]
    have hsplit : kind.count o.accepted = kind.count o.completed + kind.count o.lost := by
      unfold completed lost
      split <;> simp [WriteKind.count]
    omega

end Outcome

namespace Counters

/-- Counters tell how many ticks began, how many failed, and what the cluster accepted. They begin
again at zero when they are full. -/
structure Tells (c : Counters) (ticks errors : Nat) (made : List Call) : Prop where
  ticks : c.ticks = .ofNat ticks
  tickErrors : c.tickErrors = .ofNat errors
  nodePatches : c.nodePatches = .ofNat (WriteKind.notes.count made)
  allocations : c.allocations = .ofNat (WriteKind.row.count made)
  nodeConfigs : c.nodeConfigs = .ofNat (WriteKind.nodeConfig.count made)
  approvals : c.approvals = .ofNat (WriteKind.approval.count made)

def afterAll (c : Counters) (outcomes : List Outcome) : Counters :=
  outcomes.foldl (fun c o => c.afterTick o.result) c

theorem Tells.afterTick {c : Counters} {ticks errors : Nat} {made : List Call} {o : Outcome}
    (h : c.Tells ticks errors made)
    (ho : ∀ report, o.result = .ok report → report.Counts o.accepted) :
    (c.afterTick o.result).Tells (ticks + 1) (errors + if o.isAborted then 1 else 0)
      (made ++ o.completed) := by
  obtain ⟨hticks, herrors, hpatches, hallocations, hconfigs, happrovals⟩ := h
  unfold Outcome.completed Outcome.isAborted
  cases hresult : o.result with
  | error failure =>
    have haborted : (!(Except.error failure : Except Failure Report).isOk) = true := rfl
    rw [if_pos haborted, if_pos haborted, List.append_nil]
    refine ⟨?_, ?_, hpatches, hallocations, hconfigs, happrovals⟩
    · show c.ticks + 1 = .ofNat (ticks + 1)
      rw [hticks, UInt64.ofNat_add]
      rfl
    · show c.tickErrors + 1 = .ofNat (errors + 1)
      rw [herrors, UInt64.ofNat_add]
      rfl
  | ok report =>
    have hcompleted : ¬ (!(Except.ok report : Except Failure Report).isOk) = true := by
      simp [Except.isOk, Except.toBool]
    have hcounts := ho report hresult
    rw [if_neg hcompleted, if_neg hcompleted]
    have hadded (kind : WriteKind) : UInt64.ofNat (kind.count (made ++ o.accepted)) =
        .ofNat (kind.count made) + .ofNat (report.writesOf kind) := by
      rw [WriteKind.count_append, UInt64.ofNat_add, hcounts kind]
    refine ⟨?_, herrors, ?_, ?_, ?_, ?_⟩
    · show c.ticks + 1 = .ofNat (ticks + 1)
      rw [hticks, UInt64.ofNat_add]
      rfl
    · rw [hadded, ← hpatches]
      rfl
    · rw [hadded, ← hallocations]
      rfl
    · rw [hadded, ← hconfigs]
      rfl
    · rw [hadded, ← happrovals]
      rfl

theorem Tells.afterAll {c : Counters} {ticks errors : Nat} {made : List Call}
    {outcomes : List Outcome} (h : c.Tells ticks errors made)
    (hcounts : ∀ o ∈ outcomes, ∀ report, o.result = .ok report → report.Counts o.accepted) :
    (c.afterAll outcomes).Tells (ticks + outcomes.length)
      (errors + outcomes.countP Outcome.isAborted)
      (made ++ outcomes.flatMap Outcome.completed) := by
  induction outcomes generalizing c ticks errors made with
  | nil => simpa [Counters.afterAll] using h
  | cons o rest ih =>
    obtain ⟨ho, hrest⟩ := List.forall_mem_cons.mp hcounts
    have hafter := ih (h.afterTick ho) hrest
    have hticks : ticks + 1 + rest.length = ticks + (rest.length + 1) := by omega
    have herrors : errors + (if o.isAborted then 1 else 0) + rest.countP Outcome.isAborted =
        errors + (o :: rest).countP Outcome.isAborted := by
      rw [List.countP_cons]
      omega
    rw [hticks, herrors, List.append_assoc] at hafter
    exact hafter

theorem ofNat_add_eq_iff (made lost : Nat) :
    UInt64.ofNat made = .ofNat (made + lost) ↔ UInt64.size ∣ lost := by
  rw [← UInt64.toNat_inj, UInt64.toNat_ofNat', UInt64.toNat_ofNat', UInt64.size]
  omega

theorem Tells.more_iff {c : Counters} {ticks errors : Nat} {made all lost : List Call}
    (h : c.Tells ticks errors made)
    (hall : ∀ kind : WriteKind, kind.count all = kind.count made + kind.count lost) :
    c.Tells ticks errors all ↔ ∀ kind : WriteKind, kind ≠ .table → UInt64.size ∣ kind.count lost := by
  have hsame (kind : WriteKind) :
      UInt64.ofNat (kind.count made) = .ofNat (kind.count all) ↔ UInt64.size ∣ kind.count lost := by
    rw [hall kind, ofNat_add_eq_iff]
  obtain ⟨hticks, herrors, hpatches, hallocations, hconfigs, happrovals⟩ := h
  constructor
  · intro hmore kind hkind
    refine (hsame kind).mp ?_
    cases kind with
    | table => exact absurd rfl hkind
    | row => exact hallocations.symm.trans hmore.allocations
    | nodeConfig => exact hconfigs.symm.trans hmore.nodeConfigs
    | notes => exact hpatches.symm.trans hmore.nodePatches
    | approval => exact happrovals.symm.trans hmore.approvals
  · intro hlost
    exact ⟨hticks, herrors, hpatches.trans ((hsame _).mpr (hlost _ nofun)),
      hallocations.trans ((hsame _).mpr (hlost _ nofun)),
      hconfigs.trans ((hsame _).mpr (hlost _ nofun)),
      happrovals.trans ((hsame _).mpr (hlost _ nofun))⟩

/-- Whatever ticks there are and whichever of their calls fail, the counters tell what the cluster
accepted from those ticks that completed. So they tell all that it accepted just if ticks that failed
had changed nothing before, full rounds of the counters apart. -/
theorem counters_tell_completed_ticks {σ : Type} (answers : Tick.Answers σ)
    (ticks : List (Timestamp × Snapshot)) (state : σ) :
    let outcomes := Outcome.ofTicks answers ticks state
    let counters : Counters := afterAll {} outcomes
    let errors := outcomes.countP Outcome.isAborted
    counters.Tells ticks.length errors (outcomes.flatMap Outcome.completed) ∧
      (counters.Tells ticks.length errors (outcomes.flatMap Outcome.accepted) ↔
        ∀ kind : WriteKind, kind ≠ .table → UInt64.size ∣ kind.count (outcomes.flatMap Outcome.lost)) := by
  intro outcomes counters errors
  have hzero : ({} : Counters).Tells 0 0 [] := ⟨rfl, rfl, rfl, rfl, rfl, rfl⟩
  have hcounts : ∀ o ∈ outcomes, ∀ report, o.result = .ok report → report.Counts o.accepted :=
    fun o ho report hresult => Outcome.counts_of_mem_ofTicks ho hresult
  have htells := hzero.afterAll hcounts
  rw [Nat.zero_add, Nat.zero_add, List.nil_append, Outcome.length_ofTicks] at htells
  exact ⟨htells, htells.more_iff fun kind => Outcome.count_accepted kind outcomes⟩

/-- A tick whose last call fails: its row and its config map are stored, but never counted. -/
theorem not_tells_accepted :
    let snapshot := Snapshot.small "n" "K"
    let cluster : Cluster := ⟨snapshot.nodes, snapshot.configMaps, snapshot.requests⟩
    let outcomes := Outcome.ofTicks (Tick.refusing .annotate Cluster.answer)
      [({ seconds := 0 }, snapshot)] (some 0, cluster)
    let counters : Counters := afterAll {} outcomes
    WriteKind.row.count (outcomes.flatMap Outcome.accepted) = 1 ∧ counters.allocations = 0 ∧
      ¬ counters.Tells 1 (outcomes.countP Outcome.isAborted)
        (outcomes.flatMap Outcome.accepted) := by
  intro snapshot cluster outcomes counters
  have hwritten : WriteKind.row.count (outcomes.flatMap Outcome.accepted) = 1 ∧
      counters.allocations = 0 := by decide +kernel
  refine ⟨hwritten.1, hwritten.2, fun htells => ?_⟩
  have hcounted := htells.allocations
  rw [hwritten.1, hwritten.2] at hcounted
  cases hcounted

end Counters

end TunnelFleet
