import TunnelFleet.Proofs.Ledger.Change

namespace TunnelFleet

/-- The ticks of any number of controllers, each as far as it has come, and the ledger of the
cluster that all of them call. -/
structure Traffic where
  ledger : Ledger
  ticks : List (Tick Report)

namespace Traffic

/-- What may happen next: a tick begins over some view of the cluster, or the next call of some tick
reaches the cluster, which carries it out or refuses it, or fails on either way. -/
inductive StepOver (view : Ledger → Snapshot → Prop) : Traffic → Traffic → Prop
  | begin {t : Traffic} (now : Timestamp) {snapshot : Snapshot} (hview : view t.ledger snapshot) :
      StepOver view t { t with ticks := t.ticks ++ [reconcile now snapshot] }
  | call {t : Traffic} {i : Nat} {tick : Tick Report} {answers : Tick.Answers Ledger}
      (htick : t.ticks[i]? = some tick)
      (hanswers : ∀ call, t.ledger.Answers call (answers t.ledger call)) :
      StepOver view t ⟨(tick.step answers t.ledger).2, t.ticks.set i (tick.step answers t.ledger).1⟩

inductive ReachOver (view : Ledger → Snapshot → Prop) (start : Traffic) : Traffic → Prop
  | start : ReachOver view start start
  | next {t u : Traffic} : ReachOver view start t → StepOver view t u → ReachOver view start u

def Abides (may : Ledger → Call → Prop) (t : Traffic) : Prop :=
  ∀ tick ∈ t.ticks, tick.Obeys may (fun _ _ => True) t.ledger

section Over

variable {view : Ledger → Snapshot → Prop} {may : Ledger → Call → Prop} {start t u : Traffic}

theorem StepOver.effect (hs : StepOver view t u) (h : t.Abides may) : u.ledger = t.ledger ∨
    ∃ call reply, may t.ledger call ∧ t.ledger.Accepts call reply u.ledger := by
  cases hs with
  | begin now hview => exact .inl rfl
  | call htick hanswers => exact ((h _ (List.mem_of_getElem? htick)).step hanswers).1

theorem StepOver.before (hs : StepOver view t u) (h : t.Abides may) :
    t.ledger.Before u.ledger := by
  rcases hs.effect h with heq | ⟨call, reply, -, haccepts⟩
  · exact heq ▸ .refl _
  · exact Ledger.before_of_accepts haccepts

theorem StepOver.abides (hs : StepOver view t u) (h : t.Abides may)
    (hmay : ∀ call, Tick.Lasting fun l => may l call)
    (hbegin : ∀ now snapshot, view t.ledger snapshot →
      (reconcile now snapshot).Obeys may (fun _ _ => True) t.ledger) : u.Abides may := by
  have hbefore := hs.before h
  have hold : ∀ tick ∈ t.ticks, tick.Obeys may (fun _ _ => True) u.ledger :=
    fun tick htick => (h tick htick).mono hmay (fun _ _ _ _ => id) hbefore
  cases hs with
  | begin now hview =>
    intro tick htick
    rcases List.mem_append.mp htick with htick | htick
    · exact hold tick htick
    · obtain rfl := List.mem_singleton.mp htick
      exact hbegin _ _ hview
  | call htick hanswers =>
    intro other hother
    rcases List.mem_or_eq_of_mem_set hother with hother | rfl
    · exact hold other hother
    · exact ((h _ (List.mem_of_getElem? htick)).step hanswers).2

/-- What every allowed call preserves holds at every point of every run. Ticks begin where it holds,
and may rely on it. -/
theorem ReachOver.kept {P : Ledger → Prop} (hmay : ∀ call, Tick.Lasting fun l => may l call)
    (hbegin : ∀ l now snapshot, P l → view l snapshot →
      (reconcile now snapshot).Obeys may (fun _ _ => True) l)
    (hkept : ∀ l call reply after, P l → may l call → l.Accepts call reply after → P after)
    (hticks : start.ticks = []) (hstart : P start.ledger) (h : ReachOver view start t) :
    P t.ledger ∧ t.Abides may := by
  induction h with
  | start => exact ⟨hstart, fun tick htick => by simp [hticks] at htick⟩
  | next _ hs ih =>
    obtain ⟨hp, habides⟩ := ih
    refine ⟨?_, hs.abides habides hmay fun now snapshot => hbegin _ now snapshot hp⟩
    rcases hs.effect habides with heq | ⟨call, reply, hcall, haccepts⟩
    · exact heq ▸ hp
    · exact hkept _ call reply _ hp hcall haccepts

end Over

def Step (vetting : Vetting) : Traffic → Traffic → Prop :=
  StepOver fun l snapshot => snapshot.IsView vetting l

def Reach (vetting : Vetting) : Traffic → Traffic → Prop :=
  ReachOver fun l snapshot => snapshot.IsView vetting l

def IsOrderly (vetting : Vetting) : Traffic → Prop :=
  Abides (Reconcile.May vetting)

section Vetted

variable {vetting : Vetting} {start t u : Traffic}

theorem Step.change (hs : Step vetting t u) (h : t.IsOrderly vetting) :
    t.ledger.Change vetting u.ledger := by
  rcases StepOver.effect hs h with heq | ⟨call, reply, hmay, haccepts⟩
  · exact heq ▸ .none
  · exact Ledger.change_of_accepts hmay haccepts

theorem Reach.kept {P : Ledger → Prop}
    (hkept : ∀ l after, P l → Ledger.Change vetting l after → P after)
    (hticks : start.ticks = []) (hstart : P start.ledger) (h : Reach vetting start t) :
    P t.ledger ∧ t.IsOrderly vetting :=
  ReachOver.kept (fun call => Reconcile.May.lasting call)
    (fun _ _ _ _ hview => Tick.obeys_of_heeds (heeds_reconcile_of_view hview))
    (fun l _ _ after hp hmay haccepts => hkept l after hp (Ledger.change_of_accepts hmay haccepts))
    hticks hstart h

end Vetted

end Traffic

end TunnelFleet
