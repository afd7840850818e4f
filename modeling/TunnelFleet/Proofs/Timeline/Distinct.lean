import Mathlib.Data.List.Basic
import TunnelFleet.Proofs.Timeline.Sends
import TunnelFleet.Timeline.Basic

namespace TunnelFleet.Timeline

variable {α κ : Type} [DecidableEq κ] {sends : List (Nat × α)}

theorem distinctFrom_ofSends (key : α → κ) (last : Option κ) (h : sends.Pairwise (·.1 < ·.1)) :
    ∃ out, distinctFrom key last (ofSends sends) = ofSends out ∧ out.Sublist sends ∧
      ∀ time, ((latest? out time).map fun e => key e.2).or last =
        ((latest? sends time).map fun e => key e.2).or last := by
  induction sends generalizing last with
  | nil => exact ⟨[], rfl, List.Sublist.refl _, fun _ => rfl⟩
  | cons e rest ih =>
    obtain ⟨hhead, hrest⟩ := List.pairwise_cons.mp h
    have hunfold : distinctFrom key last (ofSends (e :: rest)) =
        if last = some (key e.2) then distinctFrom key last (ofSends rest)
        else publish e.1 e.2 :: distinctFrom key (some (key e.2)) (ofSends rest) := rfl
    rw [hunfold]
    split
    next hsame =>
      obtain ⟨out, hout, hsub, hkeys⟩ := ih last hrest
      refine ⟨out, hout, hsub.cons e, fun time => ?_⟩
      rw [hkeys time, latest?_cons, hsame]
      split
      · rw [Option.map_or, Option.map_some, Option.or_assoc, Option.some_or]
      · rfl
    next =>
      obtain ⟨out, hout, hsub, hkeys⟩ := ih (some (key e.2)) hrest
      refine ⟨e :: out, by rw [hout]; rfl, hsub.cons_cons e, fun time => ?_⟩
      rw [latest?_cons, latest?_cons]
      split
      next =>
        rw [Option.map_or, Option.map_or, Option.map_some, hkeys time]
      next hearly =>
        have hlate : ∀ s ∈ rest, time < s.1 := fun s hs => by
          have := hhead s hs
          omega
        rw [latest?_of_forall_lt hlate, latest?_of_forall_lt fun s hs => hlate s (hsub.subset hs)]

theorem distinct_ofSends (key : α → κ) (h : sends.Pairwise (·.1 < ·.1)) :
    ∃ out, (ofSends sends).distinct key = ofSends out ∧ out.Sublist sends ∧
      ∀ time, (latest? out time).map (fun e => key e.2) =
        (latest? sends time).map fun e => key e.2 := by
  rw [distinct, perInstant_ofSends_of_rising h]
  obtain ⟨out, hout, hsub, hkeys⟩ := distinctFrom_ofSends key none h
  exact ⟨out, hout, hsub, fun time => by simpa using hkeys time⟩

end TunnelFleet.Timeline
