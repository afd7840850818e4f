import Mathlib.Data.List.Basic
import TunnelFleet.Proofs.Timeline.Sends
import TunnelFleet.Timeline.Debounce

namespace TunnelFleet.Timeline

variable {α : Type} {window : Nat} {sends out : List (Nat × α)}

def later (window : Nat) (e : Nat × α) : Nat × α :=
  (e.1 + window, e.2)

/-- What comes of a source that must be quiet for a window: some of its values in their order, each
after a window in which nothing else came, and the last one in any case. -/
structure Settles (window : Nat) (sends out : List (Nat × α)) : Prop where
  sent : ∃ quiet : List (Nat × α), quiet.Sublist sends ∧ out = quiet.map (later window)
  quiet : ∀ e ∈ out, ∀ s ∈ sends, s.1 + window ≤ e.1 ∨ e.1 ≤ s.1
  spaced : out.Pairwise fun a b => a.1 + window ≤ b.1
  last : out.getLast? = sends.getLast?.map (later window)

namespace Settles

theorem exists_send (h : Settles window sends out) {e : Nat × α} (he : e ∈ out) :
    ∃ s ∈ sends, e = later window s := by
  obtain ⟨quiet, hquiet, rfl⟩ := h.sent
  obtain ⟨s, hs, rfl⟩ := List.mem_map.mp he
  exact ⟨s, hquiet.subset hs, rfl⟩

theorem sublist (h : Settles window sends out) : out.Sublist (sends.map (later window)) := by
  obtain ⟨quiet, hquiet, rfl⟩ := h.sent
  exact hquiet.map _

theorem le_of_forall_le (h : Settles window sends out) {time : Nat}
    (htime : ∀ s ∈ sends, time ≤ s.1) : ∀ e ∈ out, time + window ≤ e.1 := by
  intro e he
  obtain ⟨s, hs, rfl⟩ := h.exists_send he
  exact Nat.add_le_add_right (htime s hs) window

theorem rising (h : Settles window sends out) (hwindow : 0 < window) :
    out.Pairwise (·.1 < ·.1) :=
  h.spaced.imp fun {a b} hab => by omega

theorem exists_last (h : Settles window sends out) (hsends : sends ≠ []) :
    ∃ last, sends.getLast? = some last ∧ out.getLast? = some (later window last) := by
  refine ⟨sends.getLast hsends, List.getLast?_eq_some_getLast hsends, ?_⟩
  rw [h.last, List.getLast?_eq_some_getLast hsends]
  rfl

theorem single (e : Nat × α) : Settles window [e] [later window e] where
  sent := ⟨[e], List.Sublist.refl _, rfl⟩
  quiet := by
    intro a ha s hs
    obtain rfl := List.mem_singleton.mp ha
    obtain rfl := List.mem_singleton.mp hs
    exact .inl (Nat.le_refl _)
  spaced := List.pairwise_singleton _ _
  last := rfl

theorem skip {e : Nat × α} (h : Settles window sends out) (hnext : sends ≠ [])
    (hsends : ∀ s ∈ sends, e.1 ≤ s.1) : Settles window (e :: sends) out where
  sent := by
    obtain ⟨quiet, hquiet, hout⟩ := h.sent
    exact ⟨quiet, hquiet.cons e, hout⟩
  quiet := by
    intro a ha s hs
    rcases List.mem_cons.mp hs with rfl | hs
    · exact .inl (h.le_of_forall_le hsends a ha)
    · exact h.quiet a ha s hs
  spaced := h.spaced
  last := by
    rw [h.last, List.getLast?_cons, List.getLast?_eq_some_getLast hnext]
    rfl

theorem take {e : Nat × α} (h : Settles window sends out) (hnext : sends ≠ [])
    (hsends : ∀ s ∈ sends, e.1 + window ≤ s.1) :
    Settles window (e :: sends) (later window e :: out) where
  sent := by
    obtain ⟨quiet, hquiet, rfl⟩ := h.sent
    exact ⟨e :: quiet, hquiet.cons_cons e, rfl⟩
  quiet := by
    intro a ha s hs
    rcases List.mem_cons.mp ha with rfl | hout
    · rcases List.mem_cons.mp hs with rfl | hs
      · exact .inl (Nat.le_refl _)
      · exact .inr (hsends s hs)
    · have hlate := h.le_of_forall_le hsends a hout
      rcases List.mem_cons.mp hs with rfl | hs
      · exact .inl (by omega)
      · exact h.quiet a hout s hs
  spaced := List.pairwise_cons.mpr ⟨h.le_of_forall_le hsends, h.spaced⟩
  last := by
    rw [List.getLast?_cons, List.getLast?_cons, h.last, List.getLast?_eq_some_getLast hnext]
    rfl

theorem of_kept {kept : List (Nat × α)} (h : Settles window kept out)
    (hkept : IsPerInstant sends kept) : Settles window sends out where
  sent := by
    obtain ⟨quiet, hquiet, hout⟩ := h.sent
    exact ⟨quiet, hquiet.trans hkept.sublist, hout⟩
  quiet := by
    intro e he s hs
    obtain ⟨k, hk, heq⟩ := hkept.instants s hs
    exact heq ▸ h.quiet e he k hk
  spaced := h.spaced
  last := by rw [h.last, hkept.last]

end Settles

theorem debounceFrom_ofSends (window : Nat) {e : Nat × α} (h : (e :: sends).Pairwise (·.1 < ·.1)) :
    ∃ out, debounceFrom window (some (e.1 + window, some e.2)) (ofSends sends) = ofSends out ∧
      Settles window (e :: sends) out := by
  induction sends generalizing e with
  | nil => exact ⟨[later window e], rfl, .single e⟩
  | cons next rest ih =>
    obtain ⟨hhead, hrest⟩ := List.pairwise_cons.mp h
    obtain ⟨out, hout, hsettles⟩ := ih hrest
    have hunfold : debounceFrom window (some (e.1 + window, some e.2)) (ofSends (next :: rest)) =
        (if e.1 + window ≤ next.1 then publish? (e.1 + window) (some e.2) else []) ++
          debounceFrom window (some (next.1 + window, some next.2)) (ofSends rest) := rfl
    rw [hunfold, hout]
    split
    next hdue =>
      refine ⟨later window e :: out, rfl, hsettles.take (List.cons_ne_nil _ _) fun s hs => ?_⟩
      rcases List.mem_cons.mp hs with rfl | hs
      · exact hdue
      · exact Nat.le_trans hdue (Nat.le_of_lt ((List.pairwise_cons.mp hrest).1 s hs))
    next =>
      exact ⟨out, rfl, hsettles.skip (List.cons_ne_nil _ _) fun s hs => Nat.le_of_lt (hhead s hs)⟩

theorem debounce_ofSends (window : Nat) (h : sends.Pairwise (·.1 ≤ ·.1)) :
    ∃ out, (ofSends sends).debounce window = ofSends out ∧ Settles window sends out := by
  obtain ⟨kept, hkept, hper⟩ := perInstant_ofSends h
  rw [debounce, hkept]
  cases kept with
  | nil =>
    have hnothing : Settles window ([] : List (Nat × α)) [] :=
      ⟨⟨[], List.Sublist.refl _, rfl⟩, nofun, .nil, rfl⟩
    exact ⟨[], rfl, hnothing.of_kept hper⟩
  | cons e rest =>
    obtain ⟨out, hout, hsettles⟩ := debounceFrom_ofSends window hper.rising
    exact ⟨out, hout, hsettles.of_kept hper⟩

end TunnelFleet.Timeline
