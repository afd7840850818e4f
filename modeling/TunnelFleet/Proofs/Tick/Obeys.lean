import TunnelFleet.Proofs.Tick.Heeds

namespace TunnelFleet.Tick

variable {α : Type} {may : Ledger → Call → Prop}

/-- Every call of a tick is allowed by what its cluster has stored when it is made, whatever others
have stored between the calls, and what the tick comes to satisfies a condition. -/
def Obeys (may : Ledger → Call → Prop) (post : Ledger → α → Prop) : Ledger → Tick α → Prop
  | l, .done value => post l value
  | _, .fail _ => True
  | l, .ask call next => may l call ∧ ∀ before reply after, l.Before before →
      before.Accepts call reply after → Obeys may post after (next reply)

def Lasting (P : Ledger → Prop) : Prop :=
  ∀ l after : Ledger, l.Before after → P l → P after

theorem Obeys.mono {post : Ledger → α → Prop} (hmay : ∀ call, Lasting fun l => may l call)
    (hpost : ∀ value, Lasting fun l => post l value) {l after : Ledger} {tick : Tick α}
    (h : tick.Obeys may post l) (hl : l.Before after) : tick.Obeys may post after := by
  cases tick with
  | done value => exact hpost value l after hl h
  | fail failure => trivial
  | ask call next =>
    refine ⟨hmay call l after hl h.1, fun before reply last hb => ?_⟩
    exact h.2 before reply last (hl.trans hb)

/-- While a call is answered others may store what they will before it is carried out. -/
def ledgerMoves : Moves Ledger :=
  fun l call reply after => ∃ before, l.Before before ∧ before.Accepts call reply after

theorem before_of_ledgerMoves {l after : Ledger} {call : Call} {reply : call.Reply}
    (h : ledgerMoves l call reply after) : l.Before after := by
  obtain ⟨before, hbefore, haccepts⟩ := h
  exact hbefore.trans (Ledger.before_of_accepts haccepts)

theorem brings_of_ledgerMoves {l after : Ledger} {call : Call} {reply : call.Reply}
    (h : ledgerMoves l call reply after) : call.Brings reply := by
  obtain ⟨before, -, haccepts⟩ := h
  cases call with
  | create m => exact haccepts.1
  | replace m => exact haccepts.1
  | annotate node notes => trivial
  | approve request => trivial

theorem obeys_of_heeds {post : Ledger → α → Prop} {l : Ledger} {tick : Tick α}
    (h : tick.Heeds ledgerMoves may post l) : tick.Obeys may post l := by
  induction tick generalizing l with
  | done value => exact h
  | fail failure => trivial
  | ask call next ih =>
    refine ⟨h.1, fun before reply after hbefore haccepts => ih reply ?_⟩
    exact h.2 reply after ⟨before, hbefore, haccepts⟩

def resume {call : Call} (next : call.Reply → Tick α) : Except ClusterFault call.Reply → Tick α
  | .ok reply => next reply
  | .error fault => .fail (.cluster fault)

theorem step_ask {σ : Type} (answers : Answers σ) (state : σ) {call : Call}
    (next : call.Reply → Tick α) :
    (ask call next).step answers state =
      (resume next (answers state call).1, (answers state call).2) := by
  rw [step]
  rcases answers state call with ⟨_ | _, _⟩ <;> rfl

theorem Obeys.step {post : Ledger → α → Prop} {l : Ledger} {tick : Tick α}
    (h : tick.Obeys may post l) {answers : Answers Ledger}
    (ha : ∀ call, l.Answers call (answers l call)) :
    ((tick.step answers l).2 = l ∨
        ∃ call reply, may l call ∧ l.Accepts call reply (tick.step answers l).2) ∧
      (tick.step answers l).1.Obeys may post (tick.step answers l).2 := by
  cases tick with
  | done value => exact ⟨.inl rfl, h⟩
  | fail failure => exact ⟨.inl rfl, trivial⟩
  | ask call next =>
    have hcall := ha call
    rw [step_ask]
    rcases hanswer : answers l call with ⟨fault | reply, after⟩ <;> rw [hanswer] at hcall
    · exact ⟨hcall.imp id fun ⟨reply, hr⟩ => ⟨call, reply, h.1, hr⟩, trivial⟩
    · exact ⟨.inr ⟨call, reply, h.1, hcall⟩, h.2 l reply after (.refl l) hcall⟩

end TunnelFleet.Tick
