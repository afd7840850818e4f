import TunnelFleet.Proofs.Tick.NodeConfig
import TunnelFleet.Proofs.Tick.Walk

namespace TunnelFleet

inductive WriteKind where
  | table
  | row
  | nodeConfig
  | notes
  | approval
deriving DecidableEq

def Call.writeKind : Call → WriteKind
  | .create m => if m.isNamed Names.allocations then .table else .nodeConfig
  | .replace _ => .row
  | .annotate _ _ => .notes
  | .approve _ => .approval

def WriteKind.count (kind : WriteKind) (made : List Call) : Nat :=
  made.countP fun call => call.writeKind = kind

theorem WriteKind.count_append (kind : WriteKind) (made more : List Call) :
    kind.count (made ++ more) = kind.count made + kind.count more :=
  List.countP_append

theorem WriteKind.count_concat (kind : WriteKind) (made : List Call) (call : Call) :
    kind.count (made ++ [call]) = kind.count made + if call.writeKind = kind then 1 else 0 := by
  rw [count_append, count, count, List.countP_singleton]
  simp

theorem WriteKind.count_cons (kind : WriteKind) (call : Call) (made : List Call) :
    kind.count (call :: made) = kind.count made + if call.writeKind = kind then 1 else 0 := by
  rw [count, List.countP_cons]
  simp [count]

theorem WriteKind.sum_count (made : List Call) :
    count .table made + count .notes made + count .row made + count .nodeConfig made +
      count .approval made = made.length := by
  induction made with
  | nil => rfl
  | cons call rest ih =>
    simp only [count_cons, List.length_cons, ← ih]
    cases call.writeKind <;> simp <;> omega

namespace Report

def writesOf (r : Report) : WriteKind → Nat
  | .table => r.tablesBootstrapped
  | .row => r.allocationsWritten
  | .nodeConfig => r.nodeConfigsCreated
  | .notes => r.annotationsPatched
  | .approval => r.requestsApproved

/-- A report gives account of some calls. -/
def Counts (r : Report) (made : List Call) : Prop :=
  ∀ kind, r.writesOf kind = kind.count made

theorem Counts.concat {r next : Report} {made : List Call} (h : r.Counts made) (call : Call)
    (hnext : ∀ kind, next.writesOf kind =
      r.writesOf kind + if call.writeKind = kind then 1 else 0) :
    next.Counts (made ++ [call]) :=
  fun kind => by rw [hnext kind, h kind, WriteKind.count_concat]

theorem Counts.writes_eq {r : Report} {made : List Call} (h : r.Counts made) :
    r.writes = made.length := by
  rw [← WriteKind.sum_count made, ← h .table, ← h .notes, ← h .row, ← h .nodeConfig, ← h .approval]
  rfl

end Report

namespace Tick

def counting : Moves (List Call) :=
  fun made call _ after => after = made ++ [call]

theorem Heeds.of_ran {σ α : Type} {answers : Answers σ} {state after : σ} {made before : List Call}
    {value : α} {may : List Call → Call → Prop} {post : List Call → α → Prop} {tick : Tick α}
    (h : tick.Heeds counting may post before) (hran : Ran answers tick state made value after) :
    post (before ++ made) value := by
  induction hran generalizing before with
  | done value state => rwa [List.append_nil]
  | @ask call next state mid after reply made value hanswer hrest ih =>
    have hpost := ih (h.2 reply (before ++ [call]) rfl)
    rwa [List.append_assoc] at hpost

end Tick

namespace Reconcile

theorem countingRules (setting : Setting) (nodes : List Node) :
    Rules Tick.counting (fun _ _ => True) (fun made progress => progress.report.Counts made)
      (fun _ _ => True) setting nodes where
  found _ _ _ := trivial
  extend hknown _ := by
    refine ⟨trivial, fun stored after hafter => ⟨trivial, ?_⟩⟩
    exact hafter ▸ hknown.concat _ fun kind => by cases kind <;> rfl
  publish hknown _ _ _ _ _ _ := by
    refine ⟨trivial, fun created after hafter => hafter ▸ hknown.concat _ fun kind => ?_⟩
    rw [Call.writeKind, NodeConfig.isNamed_render (by decide)]
    cases kind <;> rfl
  annotate _ hknown _ _ := by
    refine ⟨trivial, fun reply after hafter => hafter ▸ hknown.concat _ fun kind => ?_⟩
    cases kind <;> rfl
  approve hknown _ _ _ _ _ := by
    refine ⟨trivial, fun reply after hafter => hafter ▸ hknown.concat _ fun kind => ?_⟩
    cases kind <;> rfl
  exhaust hknown kind := by
    rw [← hknown kind]
    cases kind <;> rfl

end Reconcile

open Reconcile in
/-- The report of a tick gives account of the calls that it made. -/
theorem report_counts {σ : Type} {answers : Tick.Answers σ} {state after : σ} {now : Timestamp}
    {snapshot : Snapshot} {made : List Call} {report : Report}
    (h : Tick.Ran answers (reconcile now snapshot) state made report after) :
    report.Counts made := by
  have hheeds : (reconcile now snapshot).Heeds Tick.counting (fun _ _ => True)
      (fun made report => report.Counts made) [] := by
    have hempty : Report.Counts { nodesSeen := snapshot.nodes.length } [] :=
      fun kind => by cases kind <;> rfl
    refine (heeds_reconcile (fun made progress => progress.report.Counts made) (fun _ _ => True)
      fun cluster networking _ _ => ⟨?_, countingRules _ _⟩).imp fun _ _ ⟨_, hcounts⟩ => hcounts
    refine heeds_tableOf (fun _ _ => hempty) (fun _ => hempty) fun _ _ => ⟨trivial, ?_⟩
    intro created after hafter
    exact hafter ▸ hempty.concat _ fun kind => by cases kind <;> rfl
  exact hheeds.of_ran h

end TunnelFleet
