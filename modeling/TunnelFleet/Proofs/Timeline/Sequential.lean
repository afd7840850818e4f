import TunnelFleet.Proofs.Timeline.Works
import TunnelFleet.Timeline.Sequential

namespace TunnelFleet.Timeline

variable {α : Type} {busy : Nat → Nat} {free : Nat}

def ofSource (sends : List (Nat × α)) (close : Option Nat) : Timeline α :=
  ofSends sends ++ close.toList.map fun time => (time, .close)

theorem ofSource_cons (e : Nat × α) (sends : List (Nat × α)) (close : Option Nat) :
    ofSource (e :: sends) close = publish e.1 e.2 :: ofSource sends close :=
  rfl

theorem published_ofSource (sends : List (Nat × α)) (close : Option Nat) :
    (ofSource sends close).published = sends := by
  have hclose :
      published (close.toList.map fun time => ((time, .close) : Nat × Signal α)) = [] := by
    cases close <;> rfl
  rw [ofSource, published, List.filterMap_append, ← published, ← published, published_ofSends,
    hclose, List.append_nil]

theorem perInstant_ofSource (sends : List (Nat × α)) (close : Option Nat) :
    perInstant (ofSource sends close) =
      perInstant (ofSends sends) ++ close.toList.map fun time => (time, .close) := by
  induction sends with
  | nil => cases close <;> rfl
  | cons e rest ih =>
    cases rest with
    | nil => cases close <;> rfl
    | cons next others =>
      have hsource : perInstant (ofSource (e :: next :: others) close) =
          if next.1 = e.1 then perInstant (ofSource (next :: others) close)
          else publish e.1 e.2 :: perInstant (ofSource (next :: others) close) := rfl
      rw [hsource, ih, perInstant_ofSends_cons e (next :: others)]
      simp only [List.head?_cons, Option.any_some, beq_iff_eq]
      split <;> rfl

theorem publish_inj {e k : Nat × α} (h : publish e.1 e.2 = publish k.1 k.2) : e = k := by
  obtain ⟨htime, hvalue⟩ := Prod.mk.inj h
  exact Prod.ext htime (Option.some.inj (Signal.change.inj hvalue))

theorem works_of_perInstant (front : List (Nat × α)) {sends kept calls : List (Nat × α)}
    (hkept : perInstant (ofSends sends) = ofSends kept)
    (h : Works busy free (front ++ kept) calls) :
    Works busy free (front ++ sends) calls := by
  induction sends generalizing kept front with
  | nil =>
    obtain rfl : kept = [] := List.map_eq_nil_iff.mp hkept.symm
    exact h
  | cons e rest ih =>
    rw [perInstant_ofSends_cons] at hkept
    split at hkept
    next hsame =>
      obtain ⟨next, hnext, hinstant⟩ := (Option.any_eq_true _ _).mp hsame
      obtain ⟨others, rfl⟩ := List.head?_eq_some_iff.mp hnext
      exact (ih front hkept h).echo (beq_iff_eq.mp hinstant)
    next =>
      cases kept with
      | nil => cases hkept
      | cons k kept =>
        obtain ⟨hfirst, hrest⟩ := List.cons.inj hkept
        obtain rfl := publish_inj hfirst
        have hworks : Works busy free ((front ++ [e]) ++ kept) calls := by
          rwa [List.append_assoc, List.singleton_append]
        have hrest := ih (front ++ [e]) hrest hworks
        rwa [List.append_assoc, List.singleton_append] at hrest

namespace Consumer

/-- A consumer that has seen all but some values that came while it was busy. -/
def holding (free : Nat) (held : List (Nat × α)) : Consumer α :=
  ⟨free, held.getLast?.map fun e => some e.2⟩

end Consumer

open Consumer (holding)

theorem sequentialFrom_look {e : Nat × α} (rest : Timeline α) (h : free ≤ e.1) :
    sequentialFrom busy (holding free []) (publish e.1 e.2 :: rest) =
      publish e.1 e.2 :: sequentialFrom busy (holding (e.1 + busy e.1) []) rest := by
  simp [publish, sequentialFrom, holding, Consumer.drain, Consumer.look, h]

theorem sequentialFrom_wait {e : Nat × α} (held : List (Nat × α)) (rest : Timeline α)
    (h : e.1 < free) :
    sequentialFrom busy (holding free held) (publish e.1 e.2 :: rest) =
      sequentialFrom busy (holding free (held ++ [e])) rest := by
  have hbusy : ¬ free ≤ e.1 := by omega
  simp [publish, sequentialFrom, holding, hbusy]

theorem sequentialFrom_drain {held sends : List (Nat × α)} {newest : Nat × α} (close : Option Nat)
    (hnewest : held.getLast? = some newest) (h : ∀ e ∈ sends, free ≤ e.1) :
    sequentialFrom busy (holding free held) (ofSource sends close) =
      publish free newest.2 ::
        sequentialFrom busy (holding (free + busy free) []) (ofSource sends close) := by
  cases sends with
  | nil => cases close <;> simp [ofSource, ofSends, sequentialFrom, holding, Consumer.drain,
      Consumer.look, hnewest]
  | cons e rest =>
    have hfree := h e List.mem_cons_self
    rw [ofSource_cons]
    -- the call for what was held may end before or after the next value comes
    by_cases hnext : free + busy free ≤ e.1
    · simp [publish, sequentialFrom, holding, Consumer.drain, Consumer.look, hnewest, hfree, hnext]
    · simp [publish, sequentialFrom, holding, Consumer.drain, Consumer.look, hnewest, hfree, hnext]

theorem sequentialFrom_nil (close : Option Nat) :
    sequentialFrom busy (holding free []) (ofSource ([] : List (Nat × α)) close) =
      ofSource [] (close.map (max free)) := by
  cases close <;> rfl

/-- No send comes at the end of a call that had not seen it. -/
def MissesEnds (busy : Nat → Nat) (sends calls : List (Nat × α)) : Prop :=
  ∀ call ∈ calls, ∀ e ∈ sends, call.1 < e.1 → e.1 ≠ call.1 + busy call.1

instance (busy : Nat → Nat) (sends calls : List (Nat × α)) :
    Decidable (MissesEnds busy sends calls) :=
  inferInstanceAs
    (Decidable (∀ call ∈ calls, ∀ e ∈ sends, call.1 < e.1 → e.1 ≠ call.1 + busy call.1))

/-- A consumer that is free at a time works off the values it holds and those that are still to
come, and ends when it is free after that. -/
def WorksOff (busy : Nat → Nat) (close : Option Nat) (free : Nat) (held sends : List (Nat × α)) :
    Prop :=
  ∃ calls, sequentialFrom busy (holding free held) (ofSource sends close) =
      ofSource calls (close.map (max (freeAfter busy free calls))) ∧
    ((0 < free → ∀ e ∈ sends, e.1 ≠ free) → MissesEnds busy sends calls →
      Works busy free (held ++ sends) calls)

namespace WorksOff

variable {close : Option Nat} {held rest : List (Nat × α)} {e : Nat × α}

theorem nil : WorksOff busy close free ([] : List (Nat × α)) [] :=
  ⟨[], sequentialFrom_nil close, fun _ _ => .idle free⟩

theorem look (hfree : free ≤ e.1) (hlater : ∀ s ∈ rest, e.1 < s.1)
    (h : WorksOff busy close (e.1 + busy e.1) [] rest) :
    WorksOff busy close free [] (e :: rest) := by
  obtain ⟨calls, hcalls, hworks⟩ := h
  refine ⟨e :: calls, ?_, fun _ hends => ?_⟩
  · rw [ofSource_cons, sequentialFrom_look _ hfree, hcalls]
    rfl
  · obtain ⟨hend, hends⟩ := List.forall_mem_cons.mp hends
    have hrest := hworks (fun _ s hs => hend s (List.mem_cons_of_mem _ hs) (hlater s hs))
      fun call hcall s hs => hends call hcall s (List.mem_cons_of_mem _ hs)
    show Works busy free ([e] ++ rest) ((e.1, e.2) :: calls)
    exact .call rfl rfl (Nat.max_eq_right hfree).symm (by simp) hlater hrest

theorem wait (hbusy : e.1 < free) (h : WorksOff busy close free (held ++ [e]) rest) :
    WorksOff busy close free held (e :: rest) := by
  obtain ⟨calls, hcalls, hworks⟩ := h
  refine ⟨calls, ?_, fun hfree hends => ?_⟩
  · rw [ofSource_cons, sequentialFrom_wait _ _ hbusy, hcalls]
  · have hrest := hworks (fun hpos s hs => hfree hpos s (List.mem_cons_of_mem _ hs))
      fun call hcall s hs => hends call hcall s (List.mem_cons_of_mem _ hs)
    rwa [List.append_assoc, List.singleton_append] at hrest

theorem drain {sends : List (Nat × α)} (hne : held ≠ []) (hheld : ∀ e ∈ held, e.1 < free)
    (hsends : ∀ e ∈ sends, free ≤ e.1) (h : WorksOff busy close (free + busy free) [] sends) :
    WorksOff busy close free held sends := by
  obtain ⟨calls, hcalls, hworks⟩ := h
  have hnewest := List.getLast?_eq_some_getLast hne
  have hfirst := List.head?_eq_some_head hne
  have hbefore := hheld _ (List.head_mem hne)
  refine ⟨(free, (held.getLast hne).2) :: calls, ?_, fun hfree hends => ?_⟩
  · rw [sequentialFrom_drain close hnewest hsends, hcalls]
    rfl
  · obtain ⟨hend, hends⟩ := List.forall_mem_cons.mp hends
    have hlater : ∀ e ∈ sends, free < e.1 := fun e he =>
      Nat.lt_of_le_of_ne (hsends e he) (hfree (by omega) e he).symm
    refine .call hfirst hnewest (by omega) (fun e he => Nat.le_of_lt (hheld e he)) hlater ?_
    exact hworks (fun _ e he => hend e he (hlater e he)) hends

end WorksOff

theorem worksOff (busy : Nat → Nat) (close : Option Nat) {held sends : List (Nat × α)}
    (hrising : sends.Pairwise (·.1 < ·.1)) (hheld : ∀ e ∈ held, e.1 < free) :
    WorksOff busy close free held sends := by
  induction sends generalizing free held with
  | nil =>
    by_cases hne : held = []
    · subst hne
      exact .nil
    · exact .drain hne hheld (List.forall_mem_nil _) .nil
  | cons e rest ih =>
    obtain ⟨hlater, hrest⟩ := List.pairwise_cons.mp hrising
    have hwait {free : Nat} {held : List (Nat × α)} (hheld : ∀ e ∈ held, e.1 < free)
        (hbusy : e.1 < free) : WorksOff busy close free held (e :: rest) :=
      .wait hbusy (ih hrest (List.forall_mem_append.mpr ⟨hheld, by simpa using hbusy⟩))
    have hidle (free : Nat) : WorksOff busy close free [] (e :: rest) := by
      by_cases hfree : free ≤ e.1
      · exact .look hfree hlater (ih hrest (List.forall_mem_nil _))
      · exact hwait (List.forall_mem_nil _) (by omega)
    by_cases hfree : free ≤ e.1
    · by_cases hne : held = []
      · subst hne
        exact hidle free
      · refine .drain hne hheld (List.forall_mem_cons.mpr ⟨hfree, fun s hs => ?_⟩) (hidle _)
        exact Nat.le_of_lt (Nat.lt_of_le_of_lt hfree (hlater s hs))
    · exact hwait hheld (by omega)

/-- The calls of a consumer, for a source that is sent values in the order of time and is perhaps
closed, at any time. It ends when the source is closed and the last call has ended. -/
theorem sequential_consumes (busy : Nat → Nat) {sends : List (Nat × α)} (close : Option Nat)
    (hsends : sends.Pairwise (·.1 ≤ ·.1)) :
    let calls := (sequential busy (ofSource sends close)).published
    sequential busy (ofSource sends close) =
        ofSource calls (close.map (max (freeAfter busy 0 calls))) ∧
      (MissesEnds busy sends calls → Consumes busy sends calls) := by
  obtain ⟨kept, hkept, hper⟩ := perInstant_ofSends hsends
  obtain ⟨calls, hcalls, hworks⟩ : WorksOff busy close 0 [] kept :=
    worksOff busy close hper.rising (List.forall_mem_nil _)
  have hrun : sequential busy (ofSource sends close) =
      ofSource calls (close.map (max (freeAfter busy 0 calls))) := by
    rw [sequential, perInstant_ofSource, hkept]
    exact hcalls
  intro made
  have hmade : made = calls := by rw [← published_ofSource calls, ← hrun]
  rw [hmade]
  refine ⟨hrun, fun hends => ?_⟩
  have hkeptWorks := hworks (fun h => absurd h (Nat.lt_irrefl 0))
    fun call hcall e he => hends call hcall e (hper.sublist.subset he)
  exact (works_of_perInstant [] hkept hkeptWorks).consumes

/-- Of three values that come during a call the last is handled, also when the source is closed
before the call ends. -/
theorem sequential_consumes_backlog :
    let sends := [(5, 1), (100, 2), (200, 3), (300, 4)]
    let busy (_ : Nat) := 1000
    sequential busy (ofSource sends (some 350)) = ofSource [(5, 1), (1005, 4)] (some 2005) ∧
      Consumes busy sends [(5, 1), (1005, 4)] := by
  intro sends busy
  have hsends : sends.Pairwise (·.1 ≤ ·.1) := by decide
  obtain ⟨-, hconsumes⟩ := sequential_consumes busy (some 350) hsends
  have hrun : sequential busy (ofSource sends (some 350)) =
      ofSource [(5, 1), (1005, 4)] (some 2005) := by decide +kernel
  rw [hrun, published_ofSource] at hconsumes
  exact ⟨hrun, hconsumes (by decide +kernel)⟩

end TunnelFleet.Timeline
