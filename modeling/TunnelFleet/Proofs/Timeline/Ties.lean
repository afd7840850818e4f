import Mathlib.Data.List.Chain
import TunnelFleet.Proofs.Timeline.Debounce
import TunnelFleet.Proofs.Timeline.Values
import TunnelFleet.Timeline.Settle

namespace TunnelFleet

/-- Who comes first when a value is sent just when a quiet period ends. -/
inductive Tie where
  /-- The period ends with the old value, and the new one begins another. -/
  | timer
  /-- The period ends, and by then the new value has taken the place of the old one. -/
  | both
  /-- The new value comes in time to begin another period. -/
  | value

namespace Timeline

variable {α β : Type} {window : Nat} {timeline : Timeline α} {ties : Nat → Tie}
  {pending : Option (Nat × Option α)}

def due (pending : Option (Nat × Option α)) (time : Nat) : Timeline α :=
  match pending with
  | some (deadline, value) => if deadline ≤ time then publish? deadline value else []
  | none => []

def tieAt (ties : Nat → Tie) (pending : Option (Nat × Option α)) (time : Nat) : Tie :=
  if pending.any fun p => p.1 == time then ties time else .timer

/-- As `debounceFrom`, but for ties: how these fall is not decided here. At a close it makes no
difference. -/
def debounceFromBy (ties : Nat → Tie) (window : Nat) (pending : Option (Nat × Option α)) :
    Timeline α → Timeline α
  | [] => debounceFrom window pending []
  | (time, .close) :: rest => debounceFrom window pending ((time, .close) :: rest)
  | (time, .change value) :: rest =>
      match tieAt ties pending time with
      | .timer => due pending time ++ debounceFromBy ties window (some (time + window, value)) rest
      | .both => publish? time value ++ debounceFromBy ties window none rest
      | .value => debounceFromBy ties window (some (time + window, value)) rest

def debounceBy (ties : Nat → Tie) (window : Nat) (source : Timeline α) : Timeline α :=
  debounceFromBy ties window none (perInstant source)

/-- Nothing comes just when the window is over after what came before it. -/
def IsUntied (window : Nat) (timeline : Timeline α) : Prop :=
  List.IsChain (fun time next => next ≠ time + window) (timeline.map (·.1))

instance (window : Nat) (timeline : Timeline α) : Decidable (IsUntied window timeline) :=
  inferInstanceAs (Decidable (List.IsChain _ _))

theorem isUntied_cons {entry : Nat × Signal α} : IsUntied window (entry :: timeline) ↔
    (∀ next ∈ (timeline.map (·.1)).head?, next ≠ entry.1 + window) ∧ IsUntied window timeline :=
  List.isChain_cons

theorem isUntied_of_times {times : List Nat} (htimes : timeline.map (·.1) = times)
    (h : times.IsChain fun time next => next ≠ time + window) : IsUntied window timeline := by
  rwa [IsUntied, htimes]

theorem isUntied_mapValues (f : α → β) :
    IsUntied window (mapValues f timeline) ↔ IsUntied window timeline := by
  rw [IsUntied, IsUntied, mapValues, List.map_map]
  rfl

theorem head?_times_perInstant (timeline : Timeline α) :
    ((perInstant timeline).map (·.1)).head? = (timeline.map (·.1)).head? := by
  fun_induction perInstant timeline with
  | case1 => rfl
  | case2 => rfl
  | case3 value time next rest ih => exact ih
  | case4 => rfl
  | case5 => rfl

theorem IsUntied.perInstant (h : IsUntied window timeline) :
    IsUntied window (perInstant timeline) := by
  fun_induction Timeline.perInstant timeline with
  | case1 => exact h
  | case2 => exact List.isChain_singleton _
  | case3 value time next rest ih => exact ih (isUntied_cons.mp h).2
  | case4 time value later next rest hne ih =>
    obtain ⟨hnext, hrest⟩ := isUntied_cons.mp h
    exact isUntied_cons.mpr ⟨by rwa [head?_times_perInstant], ih hrest⟩
  | case5 time value rest hother ih =>
    obtain ⟨hnext, hrest⟩ := isUntied_cons.mp h
    exact isUntied_cons.mpr ⟨by rwa [head?_times_perInstant], ih hrest⟩

theorem tieAt_of_ne {time : Nat} (h : ∀ p ∈ pending, time ≠ p.1) :
    tieAt ties pending time = .timer := by
  cases pending with
  | none => rfl
  | some p => exact if_neg (by simpa using (h p rfl).symm)

theorem debounceFromBy_eq (h : ∀ p ∈ pending, ∀ time ∈ (timeline.map (·.1)).head?, time ≠ p.1)
    (huntied : IsUntied window timeline) :
    debounceFromBy ties window pending timeline = debounceFrom window pending timeline := by
  induction timeline generalizing pending with
  | nil => rfl
  | cons entry rest ih =>
    obtain ⟨time, value | _⟩ := entry
    · obtain ⟨hnext, hrest⟩ := isUntied_cons.mp huntied
      rw [debounceFromBy, tieAt_of_ne fun p hp => h p hp time rfl]
      refine congrArg (due pending time ++ ·) (ih (fun p hp next hhead => ?_) hrest)
      obtain rfl := Option.some.inj hp
      exact hnext next hhead
    · rfl

theorem debounceBy_eq (ties : Nat → Tie) (h : IsUntied window timeline) :
    timeline.debounceBy ties window = timeline.debounce window :=
  debounceFromBy_eq nofun h.perInstant

theorem exists_between_of_isChain {times : List Nat} {time : Nat} (hwindow : 0 < window)
    (hrising : times.Pairwise (· ≤ ·)) (h : times.IsChain fun time next => next ≠ time + window)
    (htime : time ∈ times) (hover : time + window ∈ times) :
    ∃ other ∈ times, time < other ∧ other < time + window := by
  induction times with
  | nil => cases htime
  | cons first rest ih =>
    obtain ⟨hhead, hrest⟩ := List.pairwise_cons.mp hrising
    obtain ⟨hnext, hchain⟩ := List.isChain_cons.mp h
    have hlate : time + window ∈ rest := by
      rcases List.mem_cons.mp hover with hfirst | hover
      · rcases List.mem_cons.mp htime with hsame | htime
        · omega
        · have := hhead time htime
          omega
      · exact hover
    by_cases hlater : time ∈ rest
    · obtain ⟨other, hother, hbetween⟩ := ih hrest hchain hlater hlate
      exact ⟨other, List.mem_cons_of_mem _ hother, hbetween⟩
    · obtain rfl := (List.mem_cons.mp htime).resolve_right hlater
      cases rest with
      | nil => cases hlate
      | cons next others =>
        have hle := hhead next List.mem_cons_self
        have hne : next ≠ time := fun heq => hlater (heq ▸ List.mem_cons_self)
        have hfirst : next ≤ time + window := by
          rcases List.mem_cons.mp hlate with hsame | hmem
          · exact Nat.le_of_eq hsame.symm
          · exact (List.pairwise_cons.mp hrest).1 _ hmem
        have hmiss := hnext next rfl
        exact ⟨next, List.mem_cons_of_mem _ List.mem_cons_self, by omega, by omega⟩

theorem Settles.ne_of_isUntied {sends out : List (Nat × α)} (h : Settles window sends out)
    (hwindow : 0 < window) (hsends : sends.Pairwise (·.1 ≤ ·.1))
    (huntied : IsUntied window (ofSends sends)) :
    ∀ e ∈ out, ∀ s ∈ sends, s.1 ≠ e.1 := by
  intro e he s hs heq
  obtain ⟨settled, hsettled, rfl⟩ := h.exists_send he
  have hchain : (sends.map (·.1)).IsChain fun time next => next ≠ time + window := by
    simpa [IsUntied, ofSends, publish, Function.comp_def] using huntied
  have hover : settled.1 + window ∈ sends.map (·.1) := List.mem_map.mpr ⟨s, hs, heq⟩
  obtain ⟨other, hother, hbetween⟩ := exists_between_of_isChain hwindow
    (List.pairwise_map.mpr hsends) hchain (List.mem_map_of_mem hsettled) hover
  obtain ⟨between, hmem, rfl⟩ := List.mem_map.mp hother
  have hquiet := h.quiet _ he between hmem
  simp only [later] at hquiet
  omega

end Timeline

namespace Sources

/-- How ties fall at each of the four timers. -/
structure Ties where
  nodes : Nat → Tie
  configMaps : Nat → Tie
  requests : Nat → Tie
  together : Nat → Tie

def Ties.always (tie : Tie) : Ties :=
  ⟨fun _ => tie, fun _ => tie, fun _ => tie, fun _ => tie⟩

variable {s : Sources}

def newNodesBy (s : Sources) (ties : Ties) : Timeline (List Node) :=
  (s.nodes.debounceBy ties.nodes Window.nodes).distinct changeKey

def combinedBy (s : Sources) (ties : Ties) :
    Timeline (List Node × List ConfigMap × List SigningRequest) :=
  Timeline.combine (s.newNodesBy ties) (s.configMaps.debounceBy ties.configMaps Window.configMaps)
    (s.requests.debounceBy ties.requests Window.requests)

def settleBy (s : Sources) (ties : Ties) :
    Timeline (List Node × List ConfigMap × List SigningRequest) :=
  (s.combinedBy ties).debounceBy ties.together Window.together

/-- No value comes just when a timer ends that waits for one. -/
structure IsUntied (s : Sources) : Prop where
  nodes : s.nodes.IsUntied Window.nodes
  configMaps : s.configMaps.IsUntied Window.configMaps
  requests : s.requests.IsUntied Window.requests
  together : s.combined.IsUntied Window.together

theorem newNodesBy_eq (ties : Ties) (h : s.nodes.IsUntied Window.nodes) :
    s.newNodesBy ties = s.newNodes := by
  rw [newNodesBy, Timeline.debounceBy_eq _ h]
  rfl

theorem settleBy_eq (ties : Ties) (h : s.IsUntied) : s.settleBy ties = s.settle := by
  have hcombined : s.combinedBy ties = s.combined := by
    rw [combinedBy, newNodesBy_eq ties h.nodes, Timeline.debounceBy_eq _ h.configMaps,
      Timeline.debounceBy_eq _ h.requests]
    rfl
  rw [settleBy, hcombined, Timeline.debounceBy_eq _ h.together]
  rfl

end Sources

end TunnelFleet
