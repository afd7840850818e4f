import Mathlib.Data.List.Basic
import TunnelFleet.Proofs.Timeline.Sends
import TunnelFleet.Timeline.Combine

namespace TunnelFleet.Timeline

variable {α β γ δ : Type}

namespace Arrival

inductive IsSend : Arrival α β γ → Prop
  | first (a : α) : IsSend (.first (.change (some a)))
  | second (b : β) : IsSend (.second (.change (some b)))
  | third (c : γ) : IsSend (.third (.change (some c)))

def first? : Arrival α β γ → Option α
  | .first (.change value) => value
  | _ => none

def second? : Arrival α β γ → Option β
  | .second (.change value) => value
  | _ => none

def third? : Arrival α β γ → Option γ
  | .third (.change value) => value
  | _ => none

end Arrival

open Arrival

def picked (pick : Arrival α β γ → Option δ) (events : List (Nat × Arrival α β γ)) :
    List (Nat × δ) :=
  events.filterMap fun e => (pick e.2).map fun d => (e.1, d)

theorem newest?_picked_cons (pick : Arrival α β γ → Option δ) {event : Nat × Arrival α β γ}
    (rest : List (Nat × Arrival α β γ)) {time : Nat} (h : event.1 ≤ time) :
    newest? (picked pick (event :: rest)) time =
      (newest? (picked pick rest) time).or (pick event.2) := by
  cases hpick : pick event.2 with
  | none => simp [picked, hpick]
  | some d => simp [picked, hpick, newest?_cons, h]

theorem newest?_picked_of_lt (pick : Arrival α β γ → Option δ)
    {events : List (Nat × Arrival α β γ)} {time : Nat} (h : ∀ e ∈ events, time < e.1) :
    newest? (picked pick events) time = none := by
  rw [newest?, latest?_of_forall_lt]
  · rfl
  · intro found hfound
    obtain ⟨e, he, heq⟩ := List.mem_filterMap.mp hfound
    obtain ⟨d, -, rfl⟩ := Option.map_eq_some_iff.mp heq
    exact h e he

namespace Newest

variable {n : Newest α β γ} {event : Nat × Arrival α β γ} {rest : List (Nat × Arrival α β γ)}
  {time : Nat}

theorem all?_eq_some_iff (h : n.changed = true) {a : α} {b : β} {c : γ} :
    n.all? = some (a, b, c) ↔ (n.first, n.second, n.third) = (some a, some b, some c) := by
  obtain ⟨first, second, third, changed, closed⟩ := n
  obtain rfl : changed = true := h
  cases first <;> cases second <;> cases third <;> simp [all?]

def valuesAt (n : Newest α β γ) (events : List (Nat × Arrival α β γ)) (time : Nat) :
    Option α × Option β × Option γ :=
  ((newest? (picked first? events) time).or n.first,
    (newest? (picked second? events) time).or n.second,
    (newest? (picked third? events) time).or n.third)

/-- A value that arrives takes its place, and the two others stay. -/
structure Took (n : Newest α β γ) (arrival : Arrival α β γ) : Prop where
  first : (n.take arrival).first = (first? arrival).or n.first
  second : (n.take arrival).second = (second? arrival).or n.second
  third : (n.take arrival).third = (third? arrival).or n.third
  changed : (n.take arrival).changed = true
  closed : (n.take arrival).closed = n.closed

theorem took (n : Newest α β γ) {arrival : Arrival α β γ} (h : arrival.IsSend) :
    n.Took arrival := by
  cases h <;> exact ⟨rfl, rfl, rfl, rfl, rfl⟩

theorem valuesAt_cons (hsend : event.2.IsSend) (h : event.1 ≤ time) :
    n.valuesAt (event :: rest) time = (n.take event.2).valuesAt rest time := by
  have htook := n.took hsend
  simp only [valuesAt, newest?_picked_cons _ rest h, htook.first, htook.second, htook.third,
    Option.or_assoc]

theorem valuesAt_of_lt (h : ∀ e ∈ rest, time < e.1) :
    n.valuesAt rest time = (n.first, n.second, n.third) := by
  simp only [valuesAt, newest?_picked_of_lt _ h, Option.none_or]

end Newest

/-- Publications at every instant at which something arrives, of the newest values after all
arrivals of the instant. -/
structure Combines (n : Newest α β γ) (events : List (Nat × Arrival α β γ))
    (out : List (Nat × α × β × γ)) : Prop where
  rising : out.Pairwise (·.1 < ·.1)
  mem_iff : ∀ time a b c, (time, a, b, c) ∈ out ↔
    (∃ e ∈ events, e.1 = time) ∧ n.valuesAt events time = (some a, some b, some c)

namespace Combines

variable {n : Newest α β γ} {event : Nat × Arrival α β γ} {rest : List (Nat × Arrival α β γ)}
  {out : List (Nat × α × β × γ)}

theorem join (h : Combines (n.take event.2) rest out) (hsend : event.2.IsSend)
    (hhead : ∀ e ∈ rest, event.1 ≤ e.1) (hsame : ∃ e ∈ rest, e.1 = event.1) :
    Combines n (event :: rest) out where
  rising := h.rising
  mem_iff := by
    intro time a b c
    rw [h.mem_iff]
    constructor
    · rintro ⟨⟨e, he, rfl⟩, hvalues⟩
      refine ⟨⟨e, List.mem_cons_of_mem _ he, rfl⟩, ?_⟩
      rw [Newest.valuesAt_cons hsend (hhead e he)]
      exact hvalues
    · rintro ⟨⟨e, he, rfl⟩, hvalues⟩
      rcases List.mem_cons.mp he with rfl | he
      · rw [Newest.valuesAt_cons hsend (Nat.le_refl _)] at hvalues
        exact ⟨hsame, hvalues⟩
      · rw [Newest.valuesAt_cons hsend (hhead e he)] at hvalues
        exact ⟨⟨e, he, rfl⟩, hvalues⟩

theorem close (h : Combines (n.take event.2).settle rest out) (hsend : event.2.IsSend)
    (hlater : ∀ e ∈ rest, event.1 < e.1) :
    Combines n (event :: rest)
      ((n.take event.2).all?.toList.map (fun values => (event.1, values)) ++ out) where
  rising := by
    refine List.pairwise_append.mpr ⟨?_, h.rising, ?_⟩
    · cases (n.take event.2).all? <;> simp
    · rintro x hx ⟨time, a, b, c⟩ hy
      obtain ⟨values, -, rfl⟩ := List.mem_map.mp hx
      obtain ⟨⟨e, he, rfl⟩, -⟩ := (h.mem_iff time a b c).mp hy
      exact hlater e he
  mem_iff := by
    intro time a b c
    have hnow : (time, a, b, c) ∈
          (n.take event.2).all?.toList.map (fun values => (event.1, values)) ↔
        event.1 = time ∧ (n.take event.2).all? = some (a, b, c) := by
      simp [and_comm, eq_comm]
    rw [List.mem_append, hnow, h.mem_iff, Newest.all?_eq_some_iff (n.took hsend).changed]
    constructor
    · rintro (⟨rfl, hvalues⟩ | ⟨⟨e, he, rfl⟩, hvalues⟩)
      · refine ⟨⟨event, List.mem_cons_self, rfl⟩, ?_⟩
        rw [Newest.valuesAt_cons hsend (Nat.le_refl _), Newest.valuesAt_of_lt hlater]
        exact hvalues
      · refine ⟨⟨e, List.mem_cons_of_mem _ he, rfl⟩, ?_⟩
        rw [Newest.valuesAt_cons hsend (Nat.le_of_lt (hlater e he))]
        exact hvalues
    · rintro ⟨⟨e, he, rfl⟩, hvalues⟩
      rcases List.mem_cons.mp he with rfl | he
      · rw [Newest.valuesAt_cons hsend (Nat.le_refl _), Newest.valuesAt_of_lt hlater] at hvalues
        exact .inl ⟨rfl, hvalues⟩
      · rw [Newest.valuesAt_cons hsend (Nat.le_of_lt (hlater e he))] at hvalues
        exact .inr ⟨⟨e, he, rfl⟩, hvalues⟩

end Combines

theorem combineFrom_sends {events : List (Nat × Arrival α β γ)} {n : Newest α β γ}
    (hsends : ∀ e ∈ events, e.2.IsSend) (htimes : events.Pairwise (·.1 ≤ ·.1))
    (hopen : n.closed = false) :
    ∃ out, combineFrom n events = ofSends out ∧ Combines n events out := by
  induction events generalizing n with
  | nil => exact ⟨[], rfl, .nil, fun time a b c => by simp⟩
  | cons event rest ih =>
    have hsend := hsends event List.mem_cons_self
    have hrest : ∀ e ∈ rest, e.2.IsSend := fun e he => hsends e (List.mem_cons_of_mem _ he)
    obtain ⟨hhead, htail⟩ := List.pairwise_cons.mp htimes
    have hclosed : (n.take event.2).closed = false := (n.took hsend).closed.trans hopen
    have hunfold : combineFrom n (event :: rest) =
        if rest.head?.any fun next => next.1 == event.1 then combineFrom (n.take event.2) rest
        else if (n.take event.2).closed then
          publish? event.1 (n.take event.2).all? ++ [(event.1, .close)]
        else publish? event.1 (n.take event.2).all? ++
          combineFrom (n.take event.2).settle rest := rfl
    rw [hunfold]
    split
    next hsame =>
      obtain ⟨next, hnext, heq⟩ := (Option.any_eq_true _ _).mp hsame
      obtain ⟨out, hout, hcombines⟩ := ih hrest htail hclosed
      exact ⟨out, hout, hcombines.join hsend hhead
        ⟨next, List.mem_of_head? hnext, beq_iff_eq.mp heq⟩⟩
    next hother =>
      have hlater := forall_lt_of_head_ne hhead htail hother
      obtain ⟨out, hout, hcombines⟩ := ih (n := (n.take event.2).settle) hrest htail rfl
      refine ⟨_, ?_, hcombines.close hsend hlater⟩
      rw [hclosed, if_neg Bool.false_ne_true, hout, ofSends, ofSends, publish?, List.map_append,
        List.map_map]
      rfl

theorem filterMap_merge {κ : Type} {f : δ → Option κ} {le : δ → δ → Bool} {xs ys : List δ}
    (h : (∀ x ∈ xs, f x = none) ∨ ∀ y ∈ ys, f y = none) :
    (xs.merge ys le).filterMap f = xs.filterMap f ++ ys.filterMap f := by
  induction xs generalizing ys with
  | nil => simp
  | cons x xs ih =>
    induction ys with
    | nil => simp
    | cons y ys ihy =>
      rw [List.cons_merge_cons]
      split
      next =>
        rw [List.filterMap_cons, ih (h.imp (fun hx => (List.forall_mem_cons.mp hx).2) id)]
        cases hx : f x <;> simp [List.filterMap_cons, hx]
      next =>
        rw [List.filterMap_cons, ihy (h.imp id fun hy => (List.forall_mem_cons.mp hy).2)]
        rcases h with h | h
        · rw [List.filterMap_eq_nil_iff.mpr h]
          rfl
        · have hy := h y List.mem_cons_self
          simp [List.filterMap_cons, hy]

theorem picked_merge_left {pick : Arrival α β γ → Option δ} {xs ys : List (Nat × Arrival α β γ)}
    {le : Nat × Arrival α β γ → Nat × Arrival α β γ → Bool} (h : ∀ y ∈ ys, pick y.2 = none) :
    picked pick (xs.merge ys le) = picked pick xs := by
  have hnone : ∀ y ∈ ys, ((pick y.2).map fun d => (y.1, d)) = none := fun y hy => by rw [h y hy]; rfl
  rw [picked, filterMap_merge (.inr hnone), List.filterMap_eq_nil_iff.mpr hnone, List.append_nil]
  rfl

theorem picked_merge_right {pick : Arrival α β γ → Option δ} {xs ys : List (Nat × Arrival α β γ)}
    {le : Nat × Arrival α β γ → Nat × Arrival α β γ → Bool} (h : ∀ x ∈ xs, pick x.2 = none) :
    picked pick (xs.merge ys le) = picked pick ys := by
  have hnone : ∀ x ∈ xs, ((pick x.2).map fun d => (x.1, d)) = none := fun x hx => by rw [h x hx]; rfl
  rw [picked, filterMap_merge (.inl hnone), List.filterMap_eq_nil_iff.mpr hnone, List.nil_append]
  rfl

theorem picked_sends {pick : Arrival α β γ → Option δ} {channel : Signal δ → Arrival α β γ}
    (h : ∀ d, pick (channel (.change (some d))) = some d) (sends : List (Nat × δ)) :
    picked pick ((ofSends sends).map fun e => (e.1, channel e.2)) = sends := by
  rw [picked, ofSends, List.map_map, List.filterMap_map]
  have hsend : (fun e : Nat × Arrival α β γ => (pick e.2).map fun d => (e.1, d)) ∘
      ((fun e : Nat × Signal δ => (e.1, channel e.2)) ∘ fun e : Nat × δ => publish e.1 e.2) =
      some := by
    funext e
    simp [publish, h]
  rw [hsend, List.filterMap_some]

/-- All arrivals of three channels that stay open, in the order of time. -/
structure AreArrivals (as : List (Nat × α)) (bs : List (Nat × β)) (cs : List (Nat × γ))
    (events : List (Nat × Arrival α β γ)) : Prop where
  sends : ∀ e ∈ events, e.2.IsSend
  times : events.Pairwise (·.1 ≤ ·.1)
  first : picked first? events = as
  second : picked second? events = bs
  third : picked third? events = cs
  instants : ∀ time, (∃ e ∈ events, e.1 = time) ↔
    (∃ a ∈ as, a.1 = time) ∨ (∃ b ∈ bs, b.1 = time) ∨ ∃ c ∈ cs, c.1 = time

theorem times_map_ofSends {channel : Signal δ → Arrival α β γ} {sends : List (Nat × δ)}
    (h : sends.Pairwise (·.1 < ·.1)) :
    ((ofSends sends).map fun e => (e.1, channel e.2)).Pairwise
      fun x y => decide (x.1 ≤ y.1) = true := by
  rw [ofSends, List.map_map, List.pairwise_map]
  exact h.imp fun hlt => decide_eq_true (Nat.le_of_lt hlt)

theorem areArrivals {as : List (Nat × α)} {bs : List (Nat × β)} {cs : List (Nat × γ)}
    (ha : as.Pairwise (·.1 < ·.1)) (hb : bs.Pairwise (·.1 < ·.1)) (hc : cs.Pairwise (·.1 < ·.1)) :
    AreArrivals as bs cs (arrivals (ofSends as) (ofSends bs) (ofSends cs)) := by
  have hmem (e : Nat × Arrival α β γ) : e ∈ arrivals (ofSends as) (ofSends bs) (ofSends cs) ↔
      ((∃ x ∈ as, e = (x.1, .first (.change (some x.2)))) ∨
        ∃ x ∈ bs, e = (x.1, .second (.change (some x.2)))) ∨
        ∃ x ∈ cs, e = (x.1, .third (.change (some x.2))) := by
    simp only [arrivals, List.mem_merge, ofSends, List.map_map, List.mem_map, eq_comm]
    rfl
  have htrans (x y z : Nat × Arrival α β γ) (hxy : decide (x.1 ≤ y.1) = true)
      (hyz : decide (y.1 ≤ z.1) = true) : decide (x.1 ≤ z.1) = true :=
    decide_eq_true (Nat.le_trans (of_decide_eq_true hxy) (of_decide_eq_true hyz))
  have htotal (x y : Nat × Arrival α β γ) :
      (decide (x.1 ≤ y.1) || decide (y.1 ≤ x.1)) = true := by
    simpa using Nat.le_total x.1 y.1
  refine ⟨fun e he => ?_, ?_, ?_, ?_, ?_, fun time => ⟨?_, ?_⟩⟩
  · rcases (hmem e).mp he with (⟨x, -, rfl⟩ | ⟨x, -, rfl⟩) | ⟨x, -, rfl⟩
    · exact .first x.2
    · exact .second x.2
    · exact .third x.2
  · refine List.Pairwise.imp of_decide_eq_true (List.pairwise_merge htrans htotal _ _
      (List.pairwise_merge htrans htotal _ _ ?_ ?_) ?_)
    · exact times_map_ofSends ha
    · exact times_map_ofSends hb
    · exact times_map_ofSends hc
  · rw [arrivals, picked_merge_left, picked_merge_left, picked_sends fun _ => rfl]
    all_goals
      intro y hy
      obtain ⟨x, -, rfl⟩ := List.mem_map.mp hy
      rfl
  · rw [arrivals, picked_merge_left, picked_merge_right, picked_sends fun _ => rfl]
    all_goals
      intro y hy
      obtain ⟨x, -, rfl⟩ := List.mem_map.mp hy
      rfl
  · rw [arrivals, picked_merge_right, picked_sends fun _ => rfl]
    intro y hy
    rcases List.mem_merge.mp hy with hy | hy
    all_goals
      obtain ⟨x, -, rfl⟩ := List.mem_map.mp hy
      rfl
  · rintro ⟨e, he, rfl⟩
    rcases (hmem e).mp he with (⟨x, hx, rfl⟩ | ⟨x, hx, rfl⟩) | ⟨x, hx, rfl⟩
    · exact .inl ⟨x, hx, rfl⟩
    · exact .inr (.inl ⟨x, hx, rfl⟩)
    · exact .inr (.inr ⟨x, hx, rfl⟩)
  · rintro (⟨x, hx, rfl⟩ | ⟨x, hx, rfl⟩ | ⟨x, hx, rfl⟩)
    · exact ⟨_, (hmem _).mpr (.inl (.inl ⟨x, hx, rfl⟩)), rfl⟩
    · exact ⟨_, (hmem _).mpr (.inl (.inr ⟨x, hx, rfl⟩)), rfl⟩
    · exact ⟨_, (hmem _).mpr (.inr ⟨x, hx, rfl⟩), rfl⟩

/-- What is published of three channels: their newest values at every instant at which something
comes on one of them, once each has a value. -/
structure CombinesAll (as : List (Nat × α)) (bs : List (Nat × β)) (cs : List (Nat × γ))
    (out : List (Nat × α × β × γ)) : Prop where
  rising : out.Pairwise (·.1 < ·.1)
  mem_iff : ∀ time a b c, (time, a, b, c) ∈ out ↔
    ((∃ x ∈ as, x.1 = time) ∨ (∃ x ∈ bs, x.1 = time) ∨ ∃ x ∈ cs, x.1 = time) ∧
      newest? as time = some a ∧ newest? bs time = some b ∧ newest? cs time = some c

theorem CombinesAll.getLast? {as : List (Nat × α)} {bs : List (Nat × β)} {cs : List (Nat × γ)}
    {out : List (Nat × α × β × γ)} (h : CombinesAll as bs cs out)
    (ha : as.Pairwise (·.1 < ·.1)) (hb : bs.Pairwise (·.1 < ·.1)) (hc : cs.Pairwise (·.1 < ·.1))
    {a : Nat × α} {b : Nat × β} {c : Nat × γ} (hlasta : as.getLast? = some a)
    (hlastb : bs.getLast? = some b) (hlastc : cs.getLast? = some c) :
    ∃ instant, out.getLast? = some (instant, a.2, b.2, c.2) ∧
      (instant = a.1 ∨ instant = b.1 ∨ instant = c.1) := by
  let instant := max a.1 (max b.1 c.1)
  have hlea : ∀ x ∈ as, x.1 ≤ instant := fun x hx => by
    have := le_last ha hlasta x hx
    omega
  have hleb : ∀ x ∈ bs, x.1 ≤ instant := fun x hx => by
    have := le_last hb hlastb x hx
    omega
  have hlec : ∀ x ∈ cs, x.1 ≤ instant := fun x hx => by
    have := le_last hc hlastc x hx
    omega
  have hvalues : newest? as instant = some a.2 ∧ newest? bs instant = some b.2 ∧
      newest? cs instant = some c.2 := by
    rw [newest?_of_forall_le hlea, newest?_of_forall_le hleb, newest?_of_forall_le hlec, hlasta,
      hlastb, hlastc]
    exact ⟨rfl, rfl, rfl⟩
  have hone : instant = a.1 ∨ instant = b.1 ∨ instant = c.1 := by omega
  have hcomes : (∃ x ∈ as, x.1 = instant) ∨ (∃ x ∈ bs, x.1 = instant) ∨ ∃ x ∈ cs, x.1 = instant :=
    hone.imp (fun h => ⟨a, List.mem_of_getLast? hlasta, h.symm⟩) (Or.imp
      (fun h => ⟨b, List.mem_of_getLast? hlastb, h.symm⟩)
      fun h => ⟨c, List.mem_of_getLast? hlastc, h.symm⟩)
  have hmem : (instant, a.2, b.2, c.2) ∈ out := (h.mem_iff _ _ _ _).mpr ⟨hcomes, hvalues⟩
  refine ⟨instant, ?_, hone⟩
  obtain ⟨last, hlast⟩ : ∃ last, out.getLast? = some last :=
    ⟨_, List.getLast?_eq_some_getLast (List.ne_nil_of_mem hmem)⟩
  obtain ⟨time, x, y, z⟩ := last
  obtain ⟨hcame, hx, hy, hz⟩ := (h.mem_iff _ _ _ _).mp (List.mem_of_getLast? hlast)
  have hle : time ≤ instant := by
    rcases hcame with ⟨came, hcame, rfl⟩ | ⟨came, hcame, rfl⟩ | ⟨came, hcame, rfl⟩
    · exact hlea came hcame
    · exact hleb came hcame
    · exact hlec came hcame
  obtain rfl : time = instant := Nat.le_antisymm hle (le_last h.rising hlast _ hmem)
  obtain rfl := Option.some.inj (hx.symm.trans hvalues.1)
  obtain rfl := Option.some.inj (hy.symm.trans hvalues.2.1)
  obtain rfl := Option.some.inj (hz.symm.trans hvalues.2.2)
  exact hlast

theorem combine_ofSends {as : List (Nat × α)} {bs : List (Nat × β)} {cs : List (Nat × γ)}
    (ha : as.Pairwise (·.1 < ·.1)) (hb : bs.Pairwise (·.1 < ·.1)) (hc : cs.Pairwise (·.1 < ·.1)) :
    ∃ out, combine (ofSends as) (ofSends bs) (ofSends cs) = ofSends out ∧
      CombinesAll as bs cs out := by
  have harrivals := areArrivals ha hb hc
  obtain ⟨out, hout, hcombines⟩ :=
    combineFrom_sends harrivals.sends harrivals.times (n := .start) rfl
  refine ⟨out, ?_, hcombines.rising, fun time a b c => ?_⟩
  · rw [combine, perInstant_ofSends_of_rising ha, perInstant_ofSends_of_rising hb,
      perInstant_ofSends_of_rising hc, hout]
  · rw [hcombines.mem_iff, harrivals.instants, Newest.valuesAt, harrivals.first, harrivals.second,
      harrivals.third]
    simp [Newest.start]

end TunnelFleet.Timeline
