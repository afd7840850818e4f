import Mathlib.Data.List.Basic
import TunnelFleet.Timeline.Basic

namespace TunnelFleet.Timeline

variable {α : Type}

def ofSends (sends : List (Nat × α)) : Timeline α :=
  sends.map fun e => publish e.1 e.2

def latest? (sends : List (Nat × α)) (time : Nat) : Option (Nat × α) :=
  (sends.filter fun e => e.1 ≤ time).getLast?

theorem published_ofSends (sends : List (Nat × α)) : (ofSends sends).published = sends := by
  induction sends with
  | nil => rfl
  | cons e rest ih =>
    rw [published, ofSends, List.map_cons]
    exact congrArg (e :: ·) ih

theorem latest?_cons (e : Nat × α) (sends : List (Nat × α)) (time : Nat) :
    latest? (e :: sends) time =
      if e.1 ≤ time then (latest? sends time).or (some e) else latest? sends time := by
  by_cases he : e.1 ≤ time
  · rw [latest?, List.filter_cons_of_pos (by simpa using he), List.getLast?_cons, if_pos he,
      latest?]
    cases (sends.filter fun e => e.1 ≤ time).getLast? <;> rfl
  · rw [latest?, List.filter_cons_of_neg (by simpa using he), if_neg he, latest?]

theorem latest?_of_forall_le {sends : List (Nat × α)} {time : Nat} (h : ∀ e ∈ sends, e.1 ≤ time) :
    latest? sends time = sends.getLast? := by
  rw [latest?, List.filter_eq_self.mpr fun e he => by simpa using h e he]

theorem latest?_of_forall_lt {sends : List (Nat × α)} {time : Nat} (h : ∀ e ∈ sends, time < e.1) :
    latest? sends time = none := by
  rw [latest?, List.filter_eq_nil_iff.mpr fun e he => by simpa using h e he]
  rfl

theorem of_latest? {sends : List (Nat × α)} {time : Nat} {e : Nat × α}
    (h : latest? sends time = some e) : e ∈ sends ∧ e.1 ≤ time := by
  have hmem := List.mem_of_getLast? h
  rw [List.mem_filter] at hmem
  exact ⟨hmem.1, by simpa using hmem.2⟩

def newest? (sends : List (Nat × α)) (time : Nat) : Option α :=
  (latest? sends time).map (·.2)

theorem newest?_of_forall_le {sends : List (Nat × α)} {time : Nat} (h : ∀ e ∈ sends, e.1 ≤ time) :
    newest? sends time = sends.getLast?.map (·.2) := by
  rw [newest?, latest?_of_forall_le h]

theorem newest?_cons (e : Nat × α) (sends : List (Nat × α)) (time : Nat) :
    newest? (e :: sends) time =
      if e.1 ≤ time then (newest? sends time).or (some e.2) else newest? sends time := by
  rw [newest?, newest?, latest?_cons]
  split
  · rw [Option.map_or, Option.map_some]
  · rfl

theorem le_last {sends : List (Nat × α)} (h : sends.Pairwise (·.1 < ·.1)) {last : Nat × α}
    (hlast : sends.getLast? = some last) :
    ∀ e ∈ sends, e.1 ≤ last.1 := by
  intro e he
  obtain ⟨front, rfl⟩ := List.getLast?_eq_some_iff.mp hlast
  rcases List.mem_append.mp he with he | he
  · exact Nat.le_of_lt ((List.pairwise_append.mp h).2.2 e he last (List.mem_singleton_self _))
  · exact (List.mem_singleton.mp he) ▸ Nat.le_refl _

/-- What is left of a source when of several values at one instant only the last counts. -/
structure IsPerInstant (sends kept : List (Nat × α)) : Prop where
  sublist : kept.Sublist sends
  rising : kept.Pairwise (·.1 < ·.1)
  instants : ∀ s ∈ sends, ∃ k ∈ kept, k.1 = s.1
  last : kept.getLast? = sends.getLast?

theorem forall_lt_of_head_ne {sends : List (Nat × α)} {time : Nat}
    (hle : ∀ e ∈ sends, time ≤ e.1) (h : sends.Pairwise (·.1 ≤ ·.1))
    (hne : ¬ (sends.head?.any fun next => next.1 == time) = true) : ∀ e ∈ sends, time < e.1 := by
  intro e he
  cases sends with
  | nil => cases he
  | cons next rest =>
    have hnext : next.1 ≠ time := by simpa using hne
    have hle := hle next List.mem_cons_self
    have hfirst : next.1 ≤ e.1 := by
      rcases List.mem_cons.mp he with rfl | he
      · exact Nat.le_refl _
      · exact (List.pairwise_cons.mp h).1 e he
    omega

theorem perInstant_ofSends_cons (e : Nat × α) (rest : List (Nat × α)) :
    perInstant (ofSends (e :: rest)) =
      if rest.head?.any (fun next => next.1 == e.1) then perInstant (ofSends rest)
      else publish e.1 e.2 :: perInstant (ofSends rest) := by
  cases rest with
  | nil => rfl
  | cons next others =>
    change (if next.1 = e.1 then _ else _) = _
    simp only [List.head?_cons, Option.any_some, beq_iff_eq]
    rfl

theorem perInstant_ofSends {sends : List (Nat × α)} (h : sends.Pairwise (·.1 ≤ ·.1)) :
    ∃ kept, perInstant (ofSends sends) = ofSends kept ∧ IsPerInstant sends kept := by
  induction sends with
  | nil => exact ⟨[], rfl, List.Sublist.refl _, .nil, nofun, rfl⟩
  | cons e rest ih =>
    obtain ⟨hhead, hrest⟩ := List.pairwise_cons.mp h
    obtain ⟨kept, hkept, hper⟩ := ih hrest
    rw [perInstant_ofSends_cons, hkept]
    split
    next hsame =>
      obtain ⟨next, hnext, heq⟩ := (Option.any_eq_true _ _).mp hsame
      have hmem : next ∈ rest := List.mem_of_head? hnext
      refine ⟨kept, rfl, hper.sublist.cons e, hper.rising, fun s hs => ?_, ?_⟩
      · rcases List.mem_cons.mp hs with rfl | hs
        · obtain ⟨k, hk, hke⟩ := hper.instants next hmem
          exact ⟨k, hk, hke.trans (beq_iff_eq.mp heq)⟩
        · exact hper.instants s hs
      · rw [hper.last, List.getLast?_cons]
        cases hlast : rest.getLast? with
        | none => rw [List.getLast?_eq_none_iff.mp hlast] at hmem; cases hmem
        | some last => rfl
    next hother =>
      have hlater : ∀ k ∈ kept, e.1 < k.1 := fun k hk =>
        forall_lt_of_head_ne hhead hrest hother k (hper.sublist.subset hk)
      refine ⟨e :: kept, rfl, hper.sublist.cons_cons e, List.pairwise_cons.mpr ⟨hlater, hper.rising⟩,
        fun s hs => ?_, ?_⟩
      · rcases List.mem_cons.mp hs with rfl | hs
        · exact ⟨s, List.mem_cons_self, rfl⟩
        · obtain ⟨k, hk, hke⟩ := hper.instants s hs
          exact ⟨k, List.mem_cons_of_mem _ hk, hke⟩
      · rw [List.getLast?_cons, List.getLast?_cons, hper.last]

theorem perInstant_ofSends_of_rising {sends : List (Nat × α)} (h : sends.Pairwise (·.1 < ·.1)) :
    perInstant (ofSends sends) = ofSends sends := by
  induction sends with
  | nil => rfl
  | cons e rest ih =>
    obtain ⟨hhead, hrest⟩ := List.pairwise_cons.mp h
    rw [perInstant_ofSends_cons, ih hrest, if_neg]
    · rfl
    · intro hsame
      obtain ⟨next, hnext, heq⟩ := (Option.any_eq_true _ _).mp hsame
      have hlt := hhead next (List.mem_of_head? hnext)
      exact Nat.ne_of_gt hlt (beq_iff_eq.mp heq)

end TunnelFleet.Timeline
