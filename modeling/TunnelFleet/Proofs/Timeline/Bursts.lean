import Mathlib.Data.List.Forall2
import Mathlib.Data.List.SplitBy
import TunnelFleet.Proofs.Timeline.Debounce
import TunnelFleet.Proofs.Timeline.Sequential

namespace TunnelFleet.Timeline

variable {α : Type} {window : Nat} {sends more : List (Nat × α)} {e next : Nat × α}
  {close : Option Nat}

/-- When something happens next after a send: another send, or else the close. -/
def next? (sends : List (Nat × α)) (close : Option Nat) (i : Nat) : Option Nat :=
  (sends[i + 1]?.map (·.1)).or close

def quietSends (window : Nat) (sends : List (Nat × α)) (close : Option Nat) : List (Nat × α) :=
  (List.range sends.length).filterMap fun i =>
    sends[i]?.filter fun e => (next? sends close i).all fun time => e.1 + window < time

/-- The last value, if the source is closed before the window after it is over. -/
def flushed (window : Nat) (sends : List (Nat × α)) (close : Option Nat) : List (Nat × α) :=
  (sends.getLast?.bind fun e =>
    (close.filter fun time => time < e.1 + window).map fun time => (time, e.2)).toList

/-- What a source that must be quiet for a window comes to. -/
def settled (window : Nat) (sends : List (Nat × α)) (close : Option Nat) : List (Nat × α) :=
  (quietSends window sends close).map (later window) ++ flushed window sends close

/-- The sends in bursts, in which each comes before the window after the one in front is over. -/
def bursts (window : Nat) (sends : List (Nat × α)) : List (List (Nat × α)) :=
  sends.splitBy fun a b => decide (b.1 < a.1 + window)

/-- No send and no close comes just when the window after a send is over. -/
def MissesDeadlines (window : Nat) (sends : List (Nat × α)) (close : Option Nat) : Prop :=
  ∀ i (h : i < sends.length), ∀ time ∈ next? sends close i, time ≠ sends[i].1 + window

instance (window : Nat) (sends : List (Nat × α)) (close : Option Nat) :
    Decidable (MissesDeadlines window sends close) :=
  inferInstanceAs (Decidable (∀ i (h : i < sends.length),
    ∀ time ∈ next? sends close i, time ≠ sends[i].1 + window))

namespace MissesDeadlines

theorem tail (h : MissesDeadlines window (e :: sends) close) :
    MissesDeadlines window sends close := by
  intro i hi
  exact h (i + 1) (Nat.succ_lt_succ hi)

theorem next_ne (h : MissesDeadlines window (e :: next :: more) close) :
    next.1 ≠ e.1 + window :=
  h 0 (Nat.zero_lt_succ _) next.1 rfl

theorem close_ne {time : Nat} (h : MissesDeadlines window [e] (some time)) :
    time ≠ e.1 + window :=
  h 0 (Nat.zero_lt_succ _) time rfl

end MissesDeadlines

theorem quietSends_cons (e : Nat × α) (rest : List (Nat × α)) (close : Option Nat) :
    quietSends window (e :: rest) close =
      if (next? (e :: rest) close 0).all fun time => e.1 + window < time then
        e :: quietSends window rest close
      else quietSends window rest close := by
  rw [quietSends, List.length_cons, List.range_succ_eq_map, List.filterMap_cons,
    List.filterMap_map, List.getElem?_cons_zero, Option.filter_some]
  split
  next hnone =>
    rw [if_neg]
    · rfl
    · intro hquiet
      rw [if_pos hquiet] at hnone
      cases hnone
  next hsome =>
    obtain ⟨hquiet, heq⟩ := Option.ite_none_right_eq_some.mp hsome
    obtain rfl := Option.some.inj heq
    rw [if_pos hquiet]
    rfl

theorem quietSends_cons_of_next {rest : List (Nat × α)} (time : Nat)
    (h : next? (e :: rest) close 0 = some time) : quietSends window (e :: rest) close =
      if e.1 + window < time then e :: quietSends window rest close
      else quietSends window rest close := by
  rw [quietSends_cons, h]
  simp only [Option.all_some, decide_eq_true_eq]

theorem flushed_cons_cons (e next : Nat × α) (more : List (Nat × α)) (close : Option Nat) :
    flushed window (e :: next :: more) close = flushed window (next :: more) close := by
  rw [flushed, flushed, List.getLast?_cons_cons]

theorem flushed_single (e : Nat × α) (time : Nat) : flushed window [e] (some time) =
    if time < e.1 + window then [(time, e.2)] else [] := by
  simp only [flushed, List.getLast?_singleton, Option.bind_some, Option.filter_some,
    decide_eq_true_eq]
  split <;> rfl

theorem settled_near (h : next.1 < e.1 + window) :
    settled window (e :: next :: more) close = settled window (next :: more) close := by
  have hbusy : ¬ e.1 + window < next.1 := by omega
  rw [settled, settled, quietSends_cons_of_next next.1 rfl, if_neg hbusy,
    flushed_cons_cons]

theorem settled_far (h : e.1 + window < next.1) :
    settled window (e :: next :: more) close =
      later window e :: settled window (next :: more) close := by
  rw [settled, settled, quietSends_cons_of_next next.1 rfl, if_pos h, flushed_cons_cons]
  rfl

theorem settled_single_open (e : Nat × α) : settled window [e] none = [later window e] :=
  rfl

theorem settled_single_closed {time : Nat} (hne : time ≠ e.1 + window) :
    settled window [e] (some time) = [(min (e.1 + window) time, e.2)] := by
  rw [settled, quietSends_cons_of_next time rfl, flushed_single]
  by_cases h : time < e.1 + window
  · have hbusy : ¬ e.1 + window < time := by omega
    rw [if_pos h, if_neg hbusy, Nat.min_eq_right (Nat.le_of_lt h)]
    rfl
  · have hover : e.1 + window < time := by omega
    rw [if_neg h, if_pos hover, Nat.min_eq_left (Nat.le_of_lt hover)]
    rfl

theorem exists_settled_single (e : Nat × α) (hmisses : MissesDeadlines window [e] close) :
    ∃ time, settled window [e] close = [(time, e.2)] := by
  cases close with
  | none => exact ⟨_, settled_single_open e⟩
  | some time => exact ⟨_, settled_single_closed hmisses.close_ne⟩

theorem debounceFrom_ofSource_cons (deadline : Nat) (value : α) (e : Nat × α)
    (sends : List (Nat × α)) (close : Option Nat) :
    debounceFrom window (some (deadline, some value)) (ofSource (e :: sends) close) =
      (if deadline ≤ e.1 then [publish deadline value] else []) ++
        debounceFrom window (some (e.1 + window, some e.2)) (ofSource sends close) :=
  rfl

theorem debounceFrom_ofSource_closed (deadline : Nat) (value : α) (time : Nat) :
    debounceFrom window (some (deadline, some value)) (ofSource [] (some time)) =
      ofSource [(min deadline time, value)] (some time) := by
  have hunfold : debounceFrom window (some (deadline, some value)) (ofSource [] (some time)) =
      (if deadline ≤ time then [publish deadline value] else []) ++
        (((some (deadline, some value)).filter fun p => time < p.1).map fun p =>
          publish? time p.2).getD [] ++ [(time, .close)] := rfl
  rw [hunfold, Option.filter_some]
  by_cases h : time < deadline
  · have hearly : ¬ deadline ≤ time := by omega
    rw [if_neg hearly, if_pos (decide_eq_true h), Nat.min_eq_right (Nat.le_of_lt h)]
    rfl
  · have hlate : deadline ≤ time := by omega
    rw [if_pos hlate, if_neg (by simp [hlate]), Nat.min_eq_left hlate]
    rfl

theorem debounceFrom_ofSource (hmisses : MissesDeadlines window (e :: sends) close) :
    debounceFrom window (some (e.1 + window, some e.2)) (ofSource sends close) =
      ofSource (settled window (e :: sends) close) close := by
  induction sends generalizing e with
  | nil =>
    cases close with
    | none => rfl
    | some time => rw [debounceFrom_ofSource_closed, settled_single_closed hmisses.close_ne]
  | cons next more ih =>
    have hne := hmisses.next_ne
    rw [debounceFrom_ofSource_cons, ih hmisses.tail]
    by_cases h : next.1 < e.1 + window
    · have hearly : ¬ e.1 + window ≤ next.1 := by omega
      rw [settled_near h, if_neg hearly, List.nil_append]
    · have hlate : e.1 + window < next.1 := by omega
      rw [settled_far hlate, if_pos (Nat.le_of_lt hlate)]
      rfl

theorem debounce_ofSource (hsends : sends.Pairwise (·.1 < ·.1))
    (hmisses : MissesDeadlines window sends close) :
    debounce window (ofSource sends close) = ofSource (settled window sends close) close := by
  rw [debounce, perInstant_ofSource, perInstant_ofSends_of_rising hsends, ← ofSource]
  cases sends with
  | nil => cases close <;> rfl
  | cons e rest => exact debounceFrom_ofSource hmisses

theorem bursts_far (h : e.1 + window < next.1) :
    bursts window (e :: next :: more) = [e] :: bursts window (next :: more) := by
  have hbreak : decide (next.1 < e.1 + window) = false := decide_eq_false (by omega)
  exact List.splitBy_append (r := fun a b : Nat × α => decide (b.1 < a.1 + window))
    (l := [e]) (m := next :: more) (by simpa using hbreak)

theorem bursts_near (more : List (Nat × α)) (h : next.1 < e.1 + window) :
    ∃ burst others, bursts window (next :: more) = (next :: burst) :: others ∧
      bursts window (e :: next :: more) = (e :: next :: burst) :: others := by
  cases hgroups : bursts window (next :: more) with
  | nil => exact absurd (List.splitBy_eq_nil.mp hgroups) (List.cons_ne_nil _ _)
  | cons group others =>
    obtain ⟨hflat, hne, hnear, hfar⟩ := List.splitBy_eq_iff.mp hgroups
    cases group with
    | nil => exact absurd List.mem_cons_self hne
    | cons first burst =>
      rw [List.flatten_cons, List.cons_append] at hflat
      obtain ⟨rfl, hmore⟩ := List.cons.inj hflat
      refine ⟨burst, others, rfl, List.splitBy_eq_iff.mpr ⟨?_, by simpa using hne, ?_, ?_⟩⟩
      · rw [hmore, List.flatten_cons, List.cons_append, List.cons_append]
      · obtain ⟨hburst, hothers⟩ := List.forall_mem_cons.mp hnear
        exact List.forall_mem_cons.mpr
          ⟨List.isChain_cons_cons.mpr ⟨decide_eq_true h, hburst⟩, hothers⟩
      · cases others with
        | nil => exact List.isChain_singleton _
        | cons other others =>
          obtain ⟨⟨_, hother, hbreak⟩, hothers⟩ := List.isChain_cons_cons.mp hfar
          exact List.isChain_cons_cons.mpr ⟨⟨List.cons_ne_nil _ _, hother, hbreak⟩, hothers⟩

theorem settled_bursts (hmisses : MissesDeadlines window sends close) :
    List.Forall₂ (fun burst e => burst.getLast?.map (·.2) = some e.2) (bursts window sends)
      (settled window sends close) := by
  induction sends with
  | nil => exact .nil
  | cons e rest ih =>
    cases rest with
    | nil =>
      obtain ⟨time, htime⟩ := exists_settled_single e hmisses
      rw [htime]
      exact .cons rfl .nil
    | cons next more =>
      have hrest := ih hmisses.tail
      have hne := hmisses.next_ne
      by_cases h : next.1 < e.1 + window
      · obtain ⟨burst, others, hbursts, hmore⟩ := bursts_near more h
        rw [hbursts] at hrest
        obtain ⟨value, values, hlast, hothers, hvalues⟩ := List.forall₂_cons_left_iff.mp hrest
        rw [hmore, settled_near h, hvalues]
        exact .cons (by rwa [List.getLast?_cons_cons]) hothers
      · have hfar : e.1 + window < next.1 := by omega
        rw [bursts_far hfar, settled_far hfar]
        exact .cons rfl hrest

theorem getLast?_settled (hmisses : MissesDeadlines window sends close) :
    (settled window sends close).getLast?.map (·.2) = sends.getLast?.map (·.2) := by
  induction sends with
  | nil => rfl
  | cons e rest ih =>
    cases rest with
    | nil =>
      obtain ⟨time, htime⟩ := exists_settled_single e hmisses
      rw [htime]
      rfl
    | cons next more =>
      have hrest := ih hmisses.tail
      have hne := hmisses.next_ne
      rw [List.getLast?_cons_cons, ← hrest]
      by_cases h : next.1 < e.1 + window
      · rw [settled_near h]
      · rw [settled_far (by omega), List.getLast?_cons]
        cases hlast : (settled window (next :: more) close).getLast? with
        | none =>
          rw [hlast, List.getLast?_eq_some_getLast (List.cons_ne_nil _ _)] at hrest
          cases hrest
        | some last => rfl

/-- Published are the value of each send after which nothing happens for a window, at the end of
that window, and then the last value at the close, if the window after it is not over by then.
The result is closed with its source. So each burst comes to its last value, once, and the last
value of all is never lost. -/
theorem debounce_is_exact (hsends : sends.Pairwise (·.1 < ·.1))
    (hmisses : MissesDeadlines window sends close) :
    let out := (quietSends window sends close).map (later window) ++ flushed window sends close
    debounce window (ofSource sends close) = ofSource out close ∧
      List.Forall₂ (fun burst e => burst.getLast?.map (·.2) = some e.2) (bursts window sends) out ∧
      out.getLast?.map (·.2) = sends.getLast?.map (·.2) := by
  intro out
  exact ⟨debounce_ofSource hsends hmisses, settled_bursts hmisses, getLast?_settled hmisses⟩

/-- Of two bursts the second is cut short by the close. -/
theorem debounce_is_exact_closing :
    let sends := [(0, 1), (100, 2), (200, 3), (600, 4), (700, 5)]
    sends.Pairwise (·.1 < ·.1) ∧ MissesDeadlines 250 sends (some 800) ∧
      debounce 250 (ofSource sends (some 800)) = ofSource [(450, 3), (800, 5)] (some 800) := by
  intro sends
  have hsends : sends.Pairwise (·.1 < ·.1) := by decide
  have hmisses : MissesDeadlines 250 sends (some 800) := by decide
  obtain ⟨hrun, -⟩ := debounce_is_exact hsends hmisses
  have hout : (quietSends 250 sends (some 800)).map (later 250) ++ flushed 250 sends (some 800) =
      [(450, 3), (800, 5)] := by decide
  rw [hout] at hrun
  exact ⟨hsends, hmisses, hrun⟩

end TunnelFleet.Timeline
