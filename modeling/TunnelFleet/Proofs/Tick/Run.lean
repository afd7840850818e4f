import TunnelFleet.Tick.Basic

namespace TunnelFleet.Tick

variable {σ α β : Type} {answers : Answers σ} {state after : σ} {made : List Call}

theorem done_bind (value : α) (f : α → Tick β) : (Tick.done value >>= f) = f value :=
  rfl

instance : LawfulMonad Tick :=
  LawfulMonad.mk' Tick
    (fun tick => by
      induction tick with
      | done value => rfl
      | fail failure => rfl
      | ask call next ih => exact congrArg (ask call) (funext ih))
    (fun _ _ => rfl)
    (fun tick _ _ => by
      induction tick with
      | done value => rfl
      | fail failure => rfl
      | ask call next ih => exact congrArg (ask call) (funext ih))

theorem run_bind (tick : Tick α) (f : α → Tick β) (state : σ) :
    (tick >>= f).run answers state =
      match tick.run answers state with
      | (.ok value, mid) => (f value).run answers mid
      | (.error failure, mid) => (.error failure, mid) := by
  induction tick generalizing state with
  | done value => rfl
  | fail failure => rfl
  | ask call next ih =>
    change ((ask call fun reply => next reply >>= f).run answers state) = _
    rw [run, run]
    rcases answers state call with ⟨fault | reply, mid⟩
    · rfl
    · exact ih reply mid

/-- The calls a tick makes of a cluster, in their order. One that brings nothing back is the last. -/
def calls (answers : Answers σ) : Tick α → σ → List Call
  | .done _, _ => []
  | .fail _, _ => []
  | .ask call next, state =>
      call :: match answers state call with
        | (.ok reply, after) => (next reply).calls answers after
        | (.error _, _) => []

theorem calls_bind (tick : Tick α) (f : α → Tick β) (state : σ) :
    (tick >>= f).calls answers state = tick.calls answers state ++
      match tick.run answers state with
      | (.ok value, mid) => (f value).calls answers mid
      | (.error _, _) => [] := by
  induction tick generalizing state with
  | done value => rfl
  | fail failure => rfl
  | ask call next ih =>
    change ((ask call fun reply => next reply >>= f).calls answers state) = _
    rw [calls, calls, run, List.cons_append]
    rcases answers state call with ⟨fault | reply, mid⟩
    · rfl
    · exact congrArg _ (ih reply mid)

/-- A tick comes to a value by the calls it makes, and leaves a cluster behind. -/
inductive Ran (answers : Answers σ) : Tick α → σ → List Call → α → σ → Prop
  | done (value : α) (state : σ) : Ran answers (.done value) state [] value state
  | ask {call : Call} {next : call.Reply → Tick α} {state mid after : σ} {reply : call.Reply}
      {made : List Call} {value : α} (hanswer : answers state call = (.ok reply, mid))
      (hrest : Ran answers (next reply) mid made value after) :
      Ran answers (.ask call next) state (call :: made) value after

theorem ran_of_run {tick : Tick α} {value : α} (h : tick.run answers state = (.ok value, after)) :
    Ran answers tick state (tick.calls answers state) value after := by
  induction tick generalizing state with
  | done found =>
    obtain ⟨hvalue, rfl⟩ := Prod.mk.inj h
    obtain rfl := Except.ok.inj hvalue
    exact .done _ _
  | fail failure => cases h
  | ask call next ih =>
    rw [run] at h
    obtain ⟨⟨fault | reply, mid⟩, hanswer⟩ : ∃ answer, answers state call = answer := ⟨_, rfl⟩
    · rw [hanswer] at h
      cases h
    · rw [hanswer] at h
      have hcalls : (ask call next).calls answers state =
          call :: (next reply).calls answers mid := by
        rw [calls, hanswer]
      rw [hcalls]
      exact .ask hanswer (ih reply h)

namespace Ran

theorem of_done {value result : α} (h : Ran answers (.done value) state made result after) :
    made = [] ∧ result = value ∧ after = state := by
  cases h
  exact ⟨rfl, rfl, rfl⟩

theorem of_pure {value result : α} (h : Ran answers (pure value) state made result after) :
    made = [] ∧ result = value ∧ after = state :=
  of_done h

theorem of_ask {call : Call} {next : call.Reply → Tick α} {value : α}
    (h : Ran answers (.ask call next) state made value after) :
    ∃ reply mid rest, made = call :: rest ∧ answers state call = (.ok reply, mid) ∧
      Ran answers (next reply) mid rest value after := by
  cases h with
  | ask hanswer hrest => exact ⟨_, _, _, rfl, hanswer, hrest⟩

theorem of_call (call : Call) {reply : call.Reply}
    (h : Ran answers (.ask call .done) state made reply after) :
    made = [call] ∧ answers state call = (.ok reply, after) := by
  obtain ⟨found, mid, rest, rfl, hanswer, hrest⟩ := of_ask h
  obtain ⟨rfl, rfl, rfl⟩ := of_done hrest
  exact ⟨rfl, hanswer⟩

theorem of_ofExcept {ε : Type} {failure : ε → Failure} {x : Except ε α} {value : α}
    (h : Ran answers (ofExcept failure x) state made value after) :
    x = .ok value ∧ made = [] ∧ after = state := by
  cases x with
  | error e => cases h
  | ok found =>
    obtain ⟨rfl, rfl, rfl⟩ := of_done h
    exact ⟨rfl, rfl, rfl⟩

theorem of_bind {tick : Tick α} {f : α → Tick β} {value : β}
    (h : Ran answers (tick.bind f) state made value after) :
    ∃ first mid between rest, made = first ++ rest ∧ Ran answers tick state first mid between ∧
      Ran answers (f mid) between rest value after := by
  induction tick generalizing state made with
  | done found => exact ⟨[], found, state, made, rfl, .done _ _, h⟩
  | fail failure => cases h
  | ask call next ih =>
    obtain ⟨reply, mid, rest, rfl, hanswer, hrest⟩ := of_ask h
    obtain ⟨first, found, between, last, rfl, hfirst, hlast⟩ := ih reply hrest
    exact ⟨call :: first, found, between, last, rfl, .ask hanswer hfirst, hlast⟩

theorem bind {tick : Tick α} {f : α → Tick β} {first rest : List Call} {mid : α} {between : σ}
    {value : β} (h : Ran answers tick state first mid between)
    (hf : Ran answers (f mid) between rest value after) :
    Ran answers (tick >>= f) state (first ++ rest) value after := by
  induction h with
  | done found state => exact hf
  | ask hanswer hrest ih => exact .ask hanswer (ih hf)

theorem run_eq {tick : Tick α} {value : α} (h : Ran answers tick state made value after) :
    tick.run answers state = (.ok value, after) := by
  induction h with
  | done found state => rfl
  | ask hanswer hrest ih =>
    rw [run, hanswer]
    exact ih

theorem calls_eq {tick : Tick α} {value : α} (h : Ran answers tick state made value after) :
    tick.calls answers state = made := by
  induction h with
  | done found state => rfl
  | ask hanswer hrest ih =>
    rw [calls, hanswer]
    exact congrArg _ ih

end Ran

variable {γ δ : Type}

/-- A tick makes the calls of another one, leaves the same cluster behind, and its result is told from
that of the other. -/
structure RunsAs (answers : Answers σ) (f : α → β) (other : Tick α) (tick : Tick β) (state : σ) :
    Prop where
  calls : tick.calls answers state = other.calls answers state
  run : tick.run answers state =
    ((other.run answers state).1.map f, (other.run answers state).2)

namespace RunsAs

variable {f : α → β} {g : γ → δ} {other : Tick α} {tick : Tick β}

theorem refl (tick : Tick α) (state : σ) : RunsAs answers id tick tick state := by
  refine ⟨rfl, ?_⟩
  rcases tick.run answers state with ⟨failure | value, mid⟩ <;> rfl

theorem trans {k : β → γ} {last : Tick γ} (h : RunsAs answers f other tick state)
    (hlast : RunsAs answers k tick last state) : RunsAs answers (k ∘ f) other last state := by
  refine ⟨hlast.calls.trans h.calls, ?_⟩
  rw [hlast.run, h.run]
  rcases other.run answers state with ⟨failure | value, mid⟩ <;> rfl

theorem failed (h : RunsAs answers f other tick state) {failure : Failure}
    (hrun : tick.run answers state = (.error failure, after)) :
    other.run answers state = (.error failure, after) := by
  have hmap := h.run.symm.trans hrun
  rcases hother : other.run answers state with ⟨found | value, mid⟩
  · rw [hother] at hmap
    cases hmap
    rfl
  · rw [hother] at hmap
    cases hmap

theorem succeeded (h : RunsAs answers f other tick state) {value : α}
    (hrun : other.run answers state = (.ok value, after)) :
    tick.run answers state = (.ok (f value), after) := by
  rw [h.run, hrun]
  rfl

theorem of_map (f : α → β) (tick : Tick α) (state : σ) :
    RunsAs answers f tick (f <$> tick) state := by
  have hmap : f <$> tick = tick >>= fun value => .done (f value) := rfl
  rw [hmap]
  constructor
  · rw [calls_bind]
    rcases tick.run answers state with ⟨failure | value, mid⟩ <;> exact List.append_nil _
  · rw [run_bind]
    rcases tick.run answers state with ⟨failure | value, mid⟩ <;> rfl

theorem bind {k : α → Tick γ} {next : β → Tick δ} (h : RunsAs answers f other tick state)
    (hnext : ∀ value mid, other.run answers state = (.ok value, mid) →
      RunsAs answers g (k value) (next (f value)) mid) :
    RunsAs answers g (other >>= k) (tick >>= next) state := by
  constructor
  · rw [calls_bind, calls_bind, h.calls, h.run]
    rcases hrun : other.run answers state with ⟨failure | value, mid⟩
    · rfl
    · exact congrArg _ (hnext value mid hrun).calls
  · rw [run_bind, run_bind, h.run]
    rcases hrun : other.run answers state with ⟨failure | value, mid⟩
    · rfl
    · exact (hnext value mid hrun).run

end RunsAs

end TunnelFleet.Tick
