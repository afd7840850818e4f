import TunnelFleet.Proofs.Ledger.Basic
import TunnelFleet.Proofs.Tick.Run

namespace TunnelFleet

/-- What a call may bring back from a cluster that stores config maps as they are sent. -/
def Call.Brings : (call : Call) → call.Reply → Prop
  | .create m, stored => m.IsStoredAs stored
  | .replace m, stored => m.IsStoredAs stored
  | .annotate _ _, _ => True
  | .approve _, _ => True

namespace Tick

variable {W σ α β : Type}

abbrev Moves (W : Type) :=
  W → (call : Call) → call.Reply → W → Prop

/-- Every call of a tick is allowed in the world that it is made in, and what the tick comes to
satisfies a condition there. -/
def Heeds (moves : Moves W) (may : W → Call → Prop) (post : W → α → Prop) : W → Tick α → Prop
  | w, .done value => post w value
  | _, .fail _ => True
  | w, .ask call next => may w call ∧ ∀ reply after, moves w call reply after →
      Heeds moves may post after (next reply)

variable {moves : Moves W} {may : W → Call → Prop} {w : W}

theorem heeds_pure {post : W → α → Prop} {value : α} (h : post w value) :
    (pure value : Tick α).Heeds moves may post w :=
  h

theorem heeds_ofExcept {ε : Type} {failure : ε → Failure} {x : Except ε α}
    (post : W → α → Prop) (h : ∀ value, x = .ok value → post w value) :
    (ofExcept failure x).Heeds moves may post w := by
  cases x with
  | error e => trivial
  | ok value => exact h value rfl

namespace Heeds

theorem bind {mid : W → α → Prop} {post : W → β → Prop} {tick : Tick α} {f : α → Tick β}
    (h : tick.Heeds moves may mid w)
    (hf : ∀ after value, mid after value → (f value).Heeds moves may post after) :
    (tick.bind f).Heeds moves may post w := by
  induction tick generalizing w with
  | done value => exact hf w value h
  | fail failure => trivial
  | ask call next ih =>
    exact ⟨h.1, fun reply after hmoves => ih reply (h.2 reply after hmoves)⟩

theorem imp {post weaker : W → α → Prop} {tick : Tick α} (h : tick.Heeds moves may post w)
    (himp : ∀ after value, post after value → weaker after value) :
    tick.Heeds moves may weaker w := by
  induction tick generalizing w with
  | done value => exact himp w value h
  | fail failure => trivial
  | ask call next ih =>
    exact ⟨h.1, fun reply after hmoves => ih reply (h.2 reply after hmoves)⟩

theorem and {other : W → Call → Prop} {post weaker : W → α → Prop} {tick : Tick α}
    (h : tick.Heeds moves may post w) (ho : tick.Heeds moves other weaker w) :
    tick.Heeds moves (fun w call => may w call ∧ other w call) post w := by
  induction tick generalizing w with
  | done value => exact h
  | fail failure => trivial
  | ask call next ih =>
    refine ⟨⟨h.1, ho.1⟩, fun reply after hmoves => ?_⟩
    exact ih reply (h.2 reply after hmoves) (ho.2 reply after hmoves)

theorem of_mem_calls {answers : Answers σ} (view : σ → W) {post : W → α → Prop} {tick : Tick α}
    {state : σ} {call : Call}
    (hmoves : ∀ state call reply after, answers state call = (.ok reply, after) →
      moves (view state) call reply (view after))
    (h : tick.Heeds moves may post (view state)) (hcall : call ∈ tick.calls answers state) :
    ∃ state, may (view state) call := by
  induction tick generalizing state with
  | done value => cases hcall
  | fail failure => cases hcall
  | ask asked next ih =>
    rw [calls] at hcall
    rcases List.mem_cons.mp hcall with rfl | hcall
    · exact ⟨state, h.1⟩
    · obtain ⟨⟨fault | reply, after⟩, hanswer⟩ : ∃ answer, answers state asked = answer := ⟨_, rfl⟩
      · rw [hanswer] at hcall
        cases hcall
      · rw [hanswer] at hcall
        exact ih reply (h.2 reply _ (hmoves state asked reply after hanswer)) hcall

end Heeds

end Tick

end TunnelFleet
