import Mathlib.Data.List.Forall2
import TunnelFleet.Proofs.Timeline.Sends

namespace TunnelFleet.Timeline

variable {α : Type}

/-- What a consumer that is free at a time does with the sends it has not seen: it calls at the first
of them, or as soon as it is free, for the newest of those sent by then, and then goes on with the
others. -/
inductive Works (busy : Nat → Nat) : Nat → List (Nat × α) → List (Nat × α) → Prop
  | idle (free : Nat) : Works busy free [] []
  | call {free start : Nat} {first newest : Nat × α} {seen unseen calls : List (Nat × α)}
      (hfirst : seen.head? = some first) (hnewest : seen.getLast? = some newest)
      (hstart : start = max free first.1) (hseen : ∀ e ∈ seen, e.1 ≤ start)
      (hunseen : ∀ e ∈ unseen, start < e.1)
      (hrest : Works busy (start + busy start) unseen calls) :
      Works busy free (seen ++ unseen) ((start, newest.2) :: calls)

def freeAfter (busy : Nat → Nat) (free : Nat) : List (Nat × α) → Nat
  | [] => free
  | call :: calls => freeAfter busy (call.1 + busy call.1) calls

/-- A call takes the newest value at its start, the one of the send at a position. -/
structure Handles (sends : List (Nat × α)) (i : Nat) (call : Nat × α) : Prop where
  sent : ∃ e, sends[i]? = some e ∧ e.1 ≤ call.1 ∧ e.2 = call.2
  newest : ∀ j e, i < j → sends[j]? = some e → call.1 < e.1

/-- Calls do not overlap and take what was sent in its order, no send twice. The first starts at the
first send, each other one as soon as the call before it has ended and a send has come after that
call's start. From a send on the first call takes it or a newer one, and the last call takes the last
send. -/
structure Consumes (busy : Nat → Nat) (sends calls : List (Nat × α)) : Prop where
  apart : calls.Pairwise fun a b => a.1 + busy a.1 ≤ b.1
  values : (calls.map (·.2)).Sublist (sends.map (·.2))
  handled : ∃ places : List Nat, places.Pairwise (· < ·) ∧ List.Forall₂ (Handles sends) places calls
  first : calls.head?.map (·.1) = sends.head?.map (·.1)
  next : ∀ before a b after, calls = before ++ a :: b :: after →
    ∃ e, sends.find? (fun e => a.1 < e.1) = some e ∧ b.1 = max (a.1 + busy a.1) e.1
  reached : ∀ i e, sends[i]? = some e → ∃ before call after, calls = before ++ call :: after ∧
    (∀ c ∈ before, c.1 < e.1) ∧ e.1 ≤ call.1 ∧ ∃ j, i ≤ j ∧ Handles sends j call
  last : calls.getLast?.map (·.2) = sends.getLast?.map (·.2)

section Handles

variable {seen unseen : List (Nat × α)} {newest call : Nat × α} {start i : Nat}

theorem Handles.append (h : Handles unseen i call) (seen : List (Nat × α)) :
    Handles (seen ++ unseen) (seen.length + i) call where
  sent := by
    rw [List.getElem?_append_right (by omega), Nat.add_sub_cancel_left]
    exact h.sent
  newest j e hj he := by
    rw [List.getElem?_append_right (by omega)] at he
    exact h.newest (j - seen.length) e (by omega) he

theorem handles_last (hnewest : seen.getLast? = some newest) (hseen : ∀ e ∈ seen, e.1 ≤ start)
    (hunseen : ∀ e ∈ unseen, start < e.1) :
    Handles (seen ++ unseen) (seen.length - 1) (start, newest.2) := by
  have hmem := List.mem_of_getLast? hnewest
  have hlength := List.length_pos_of_mem hmem
  refine ⟨⟨newest, ?_, hseen newest hmem, rfl⟩, fun j e hj he => ?_⟩
  · rw [List.getElem?_append_left (by omega), ← List.getLast?_eq_getElem?, hnewest]
  · rw [List.getElem?_append_right (by omega)] at he
    exact hunseen e (List.mem_of_getElem? he)

end Handles

namespace Works

variable {busy : Nat → Nat} {free : Nat} {sends calls : List (Nat × α)}

theorem le_start (h : Works busy free sends calls) : ∀ call ∈ calls, free ≤ call.1 := by
  induction h with
  | idle => exact List.forall_mem_nil _
  | call _ _ hstart _ _ _ ih =>
    refine List.forall_mem_cons.mpr ⟨hstart ▸ Nat.le_max_left .., fun call hcall => ?_⟩
    have hlater := ih call hcall
    omega

theorem apart (h : Works busy free sends calls) :
    calls.Pairwise fun a b => a.1 + busy a.1 ≤ b.1 := by
  induction h with
  | idle => exact .nil
  | call _ _ _ _ _ hrest ih => exact List.pairwise_cons.mpr ⟨hrest.le_start, ih⟩

theorem values (h : Works busy free sends calls) :
    (calls.map (·.2)).Sublist (sends.map (·.2)) := by
  induction h with
  | idle => exact List.Sublist.refl _
  | @call _ _ _ newest seen _ _ _ hnewest _ _ _ _ ih =>
    have hmem : newest.2 ∈ seen.map (·.2) := List.mem_map_of_mem (List.mem_of_getLast? hnewest)
    rw [List.map_append, List.map_cons, ← List.singleton_append]
    exact (List.singleton_sublist.mpr hmem).append ih

theorem handled (h : Works busy free sends calls) :
    ∃ places : List Nat, places.Pairwise (· < ·) ∧ List.Forall₂ (Handles sends) places calls := by
  induction h with
  | idle => exact ⟨[], .nil, .nil⟩
  | @call _ _ _ newest seen unseen calls _ hnewest _ hseen hunseen _ ih =>
    obtain ⟨places, hrising, hhandles⟩ := ih
    refine ⟨(seen.length - 1) :: places.map (seen.length + ·), ?_, ?_⟩
    · have hlength := List.length_pos_of_mem (List.mem_of_getLast? hnewest)
      refine List.pairwise_cons.mpr ⟨fun place hplace => ?_, ?_⟩
      · obtain ⟨i, -, rfl⟩ := List.mem_map.mp hplace
        omega
      · exact List.pairwise_map.mpr (hrising.imp fun hlt => by omega)
    · refine .cons (handles_last hnewest hseen hunseen) ?_
      rw [List.forall₂_map_left_iff]
      exact hhandles.imp fun _ _ hcall => hcall.append seen

theorem first (h : Works busy free sends calls) :
    calls.head?.map (·.1) = sends.head?.map fun e => max free e.1 := by
  cases h with
  | idle => rfl
  | call hfirst _ hstart => simp [hfirst, hstart]

theorem next (h : Works busy free sends calls) : ∀ before a b after,
    calls = before ++ a :: b :: after →
      ∃ e, sends.find? (fun e => a.1 < e.1) = some e ∧ b.1 = max (a.1 + busy a.1) e.1 := by
  induction h with
  | idle => exact fun before _ _ _ hcalls => by simp at hcalls
  | @call free start first newest seen unseen calls _ _ _ hseen hunseen hrest ih =>
    intro before a b after hcalls
    have hskip (time : Nat) (htime : start ≤ time) :
        (seen ++ unseen).find? (fun e => time < e.1) = unseen.find? (fun e => time < e.1) := by
      have hnone : seen.find? (fun e => time < e.1) = none := by
        refine List.find?_eq_none.mpr fun e he => ?_
        have hle := hseen e he
        simp only [decide_eq_true_eq]
        omega
      rw [List.find?_append, hnone, Option.none_or]
    cases before with
    | nil =>
      obtain ⟨rfl, rfl⟩ := List.cons.inj hcalls
      have hstart := hrest.first
      rw [List.head?_cons, Option.map_some] at hstart
      obtain ⟨e, he, hb⟩ := Option.map_eq_some_iff.mp hstart.symm
      refine ⟨e, ?_, hb.symm⟩
      obtain ⟨others, rfl⟩ := List.head?_eq_some_iff.mp he
      have hlater := hunseen e List.mem_cons_self
      rw [hskip start (Nat.le_refl _), List.find?_cons_of_pos (by simpa using hlater)]
    | cons c before =>
      obtain ⟨rfl, hrestCalls⟩ := List.cons.inj hcalls
      have hmem : a ∈ calls := by simp [hrestCalls]
      have hlater := hrest.le_start a hmem
      rw [hskip a.1 (by omega)]
      exact ih before a b after hrestCalls

theorem reached (h : Works busy free sends calls) : ∀ i e, sends[i]? = some e →
    ∃ before call after, calls = before ++ call :: after ∧ (∀ c ∈ before, c.1 < e.1) ∧
      e.1 ≤ call.1 ∧ ∃ j, i ≤ j ∧ Handles sends j call := by
  induction h with
  | idle => exact fun i e he => by simp at he
  | @call _ start _ newest seen unseen calls _ hnewest _ hseen hunseen _ ih =>
    intro i e he
    by_cases hi : i < seen.length
    · rw [List.getElem?_append_left hi] at he
      have hle := hseen e (List.mem_of_getElem? he)
      exact ⟨[], _, calls, rfl, List.forall_mem_nil _, hle, _, by omega,
        handles_last hnewest hseen hunseen⟩
    · rw [List.getElem?_append_right (by omega)] at he
      have hlater := hunseen e (List.mem_of_getElem? he)
      obtain ⟨before, call, after, rfl, hbefore, hle, j, hj, hcall⟩ := ih _ e he
      exact ⟨(start, newest.2) :: before, call, after, rfl,
        List.forall_mem_cons.mpr ⟨hlater, hbefore⟩, hle, _, by omega, hcall.append seen⟩

theorem last (h : Works busy free sends calls) :
    calls.getLast?.map (·.2) = sends.getLast?.map (·.2) := by
  induction h with
  | idle => rfl
  | call _ hnewest _ _ _ hrest ih =>
    cases hrest with
    | idle => simp [hnewest]
    | call hfirst hlast =>
      rw [List.getLast?_cons_cons, ih, List.getLast?_append]
      simp [hlast]

theorem consumes (h : Works busy 0 sends calls) : Consumes busy sends calls where
  apart := h.apart
  values := h.values
  handled := h.handled
  first := by simpa using h.first
  next := h.next
  reached := h.reached
  last := h.last

theorem exists_head_of_echo {front more : List (Nat × α)} {e next first : Nat × α}
    (hinstant : next.1 = e.1) (hfirst : (front ++ next :: more).head? = some first) :
    ∃ head, (front ++ e :: next :: more).head? = some head ∧ head.1 = first.1 := by
  cases front with
  | nil =>
    obtain rfl := Option.some.inj hfirst
    exact ⟨e, rfl, hinstant.symm⟩
  | cons f front => exact ⟨first, hfirst, rfl⟩

theorem echo {front rest : List (Nat × α)} {e next : Nat × α} (hinstant : next.1 = e.1)
    (h : Works busy free (front ++ next :: rest) calls) :
    Works busy free (front ++ e :: next :: rest) calls := by
  have hinsert (p : Nat → Prop) {front more : List (Nat × α)}
      (hall : ∀ s ∈ front ++ next :: more, p s.1) : ∀ s ∈ front ++ e :: next :: more, p s.1 := by
    simp only [List.forall_mem_append, List.forall_mem_cons] at hall ⊢
    exact ⟨hall.1, hinstant ▸ hall.2.1, hall.2⟩
  generalize hsends : front ++ next :: rest = sends at h
  induction h generalizing front with
  | idle => simp at hsends
  | @call free start first newest seen unseen calls hfirst hnewest hstart hseen hunseen hrest ih =>
    -- the two sends are for the same call, as they come at one instant
    have hlater (others : List (Nat × α)) (hfront : front = seen ++ others)
        (hothers : others ++ next :: rest = unseen) :
        Works busy free (front ++ e :: next :: rest) ((start, newest.2) :: calls) := by
      rw [hfront, List.append_assoc]
      rw [← hothers] at hunseen
      have hunseen := hinsert (start < ·) hunseen
      exact .call hfirst hnewest hstart hseen hunseen (ih hothers)
    rcases List.append_eq_append_iff.mp hsends with
      ⟨more, hmore, hrest'⟩ | ⟨others, hfront, hothers⟩
    · cases more with
      | nil => exact hlater [] (by simpa using hmore.symm) hrest'
      | cons m more =>
        rw [List.cons_append] at hrest'
        obtain ⟨rfl, rfl⟩ := List.cons.inj hrest'
        rw [hmore] at hfirst hnewest hseen
        obtain ⟨head, hhead, htime⟩ := exists_head_of_echo hinstant hfirst
        have hlast : (front ++ e :: next :: more).getLast? = some newest := by
          rw [List.getLast?_append] at hnewest ⊢
          rwa [List.getLast?_cons_cons]
        have hsplit : front ++ e :: next :: (more ++ unseen) =
            (front ++ e :: next :: more) ++ unseen := by simp
        rw [hsplit]
        have hseen := hinsert (· ≤ start) hseen
        exact .call hhead hlast (htime ▸ hstart) hseen hunseen hrest
    · exact hlater others hfront hothers.symm

end Works

end TunnelFleet.Timeline
