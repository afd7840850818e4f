import Mathlib.Data.List.Perm.Basic
import TunnelFleet.Proofs.Allocation.Candidates
import TunnelFleet.Proofs.Allocation.Deal

namespace TunnelFleet

namespace Allocation

/-- The router at a position is chosen: it has something to give, and those before it have nothing. -/
structure IsPick (routers : List Router) (table : Table) (position : Nat) (found : Allocation) :
    Prop where
  passed : next (routers.take position) table = .error .exhausted
  picked : ∃ r, routers[position]? = some r ∧ next [r] table = .ok found

/-- Addresses are searched for and put into the table, again and again. Each step tells the position of
the router that was chosen and what was found, which is put into the table for any node. -/
inductive Fills (routers : List Router) : Table → List (Nat × Allocation) → Table → Prop
  | nil (table : Table) : Fills routers table [] table
  | cons {table after : Table} {position : Nat} {found : Allocation}
      {steps : List (Nat × Allocation)} (nodeKey nodeName : String)
      (hpick : IsPick routers table position found)
      (hrest : Fills routers (table.push { found with nodeKey, nodeName }) steps after) :
      Fills routers table ((position, found) :: steps) after

/-- Runs from a table end after so many steps: none goes further, and none stops before. -/
structure EndsAfter (routers : List Router) (table : Table) (total : Nat) : Prop where
  reached : ∃ steps after, Fills routers table steps after ∧ steps.length = total
  goesOn : ∀ steps after, Fills routers table steps after → steps.length < total →
    ∃ found, next routers after = .ok found
  ends : ∀ steps after, Fills routers table steps after → total ≤ steps.length →
    steps.length = total ∧ next routers after = .error .exhausted

variable {routers : List Router} {table other after : Table} {found : Allocation}
  {position : Nat} {steps : List (Nat × Allocation)}

theorem nodeIP_not_mem_of_next (h : next routers table = .ok found) :
    found.nodeIP ∉ table.nodeIPs := by
  intro hmem
  obtain ⟨row, hrow, heq⟩ := List.mem_map.mp hmem
  obtain ⟨hgiven, hapart⟩ := of_next h
  obtain ⟨a, ha⟩ := hgiven.nodeIP
  have hholds : Holds found.nodeIP a :=
    ⟨_, ha ▸ Block.ofText_text_address a, Block.contains_address _⟩
  exact (hapart row hrow).1 a ⟨heq ▸ hholds, hholds⟩

theorem IsPick.isReadable (h : IsPick routers table position found) : found.IsReadable := by
  obtain ⟨r, -, hr⟩ := h.picked
  exact (of_next hr).1.isReadable

theorem IsPick.isReadable_push (h : IsPick routers table position found)
    (hrows : ∀ row ∈ table.rows, row.IsReadable) (nodeKey nodeName : String) :
    ∀ row ∈ (table.push { found with nodeKey, nodeName }).rows, row.IsReadable :=
  List.forall_mem_append.mpr ⟨hrows, List.forall_mem_singleton.mpr h.isReadable⟩

theorem IsPick.congr (h : IsPick routers table position found)
    (haddresses : table.addresses = other.addresses) : IsPick routers other position found where
  passed := next_congr _ haddresses ▸ h.passed
  picked := h.picked.imp fun _ hr => ⟨hr.1, next_congr _ haddresses ▸ hr.2⟩

theorem Fills.congr (h : Fills routers table steps after)
    (haddresses : table.addresses = other.addresses) :
    ∃ after', Fills routers other steps after' ∧ after.addresses = after'.addresses := by
  induction h generalizing other with
  | nil table => exact ⟨other, .nil other, haddresses⟩
  | @cons table after position found steps nodeKey nodeName hpick hrest ih =>
    have hpush : (table.push { found with nodeKey, nodeName }).addresses =
        (other.push { found with nodeKey, nodeName }).addresses := by
      rw [Table.addresses_push, Table.addresses_push, haddresses]
    obtain ⟨after', hafter, hsame⟩ := ih hpush
    exact ⟨after', .cons nodeKey nodeName (hpick.congr haddresses) hafter, hsame⟩

theorem Fills.isReadable (h : Fills routers table steps after)
    (hrows : ∀ row ∈ table.rows, row.IsReadable) : ∀ row ∈ after.rows, row.IsReadable := by
  induction h with
  | nil => exact hrows
  | cons nodeKey nodeName hpick _ ih => exact ih (hpick.isReadable_push hrows nodeKey nodeName)

section Pools

variable (hpools : ∀ r ∈ routers, r.HasPools)

include hpools

theorem isPick_iff (hrows : ∀ row ∈ table.rows, row.IsReadable) :
    IsPick routers table position found ↔
      ∃ front r back, routers = front ++ r :: back ∧ position = front.length ∧
        (∀ s ∈ front, s.pick? table = none) ∧ r.pick? table = some found := by
  constructor
  · rintro ⟨hpassed, r, hr, hpicked⟩
    obtain ⟨hlt, rfl⟩ := List.getElem?_eq_some_iff.mp hr
    refine ⟨routers.take position, routers[position], routers.drop (position + 1), ?_, ?_, ?_, ?_⟩
    · rw [List.getElem_cons_drop, List.take_append_drop]
    · rw [List.length_take, Nat.min_eq_left (Nat.le_of_lt hlt)]
    · exact (next_eq_exhausted_iff (fun s hs => hpools s (List.mem_of_mem_take hs)) hrows).mp hpassed
    · simpa using (next_eq_ok_iff (by simpa using hpools _ (List.getElem_mem hlt)) hrows).mp hpicked
  · rintro ⟨front, r, back, rfl, rfl, hfront, hr⟩
    obtain ⟨hfrontPools, hrPools, -⟩ : (∀ s ∈ front, s.HasPools) ∧ r.HasPools ∧ _ := by
      simpa only [List.forall_mem_append, List.forall_mem_cons] using hpools
    refine ⟨?_, r, by simp, ?_⟩
    · rw [List.take_left]
      exact (next_eq_exhausted_iff hfrontPools hrows).mpr hfront
    · exact (next_eq_ok_iff (by simpa using hrPools) hrows).mpr (by simpa using hr)

theorem next_eq_ok_iff_isPick (hrows : ∀ row ∈ table.rows, row.IsReadable) :
    next routers table = .ok found ↔ ∃ position, IsPick routers table position found := by
  rw [next_eq_ok_iff hpools hrows, List.findSome?_eq_some_iff]
  constructor
  · rintro ⟨front, r, back, hsplit, hr, hfront⟩
    exact ⟨_, (isPick_iff hpools hrows).mpr ⟨front, r, back, hsplit, rfl, hfront, hr⟩⟩
  · rintro ⟨position, h⟩
    obtain ⟨front, r, back, hsplit, -, hfront, hr⟩ := (isPick_iff hpools hrows).mp h
    exact ⟨front, r, back, hsplit, hr, hfront⟩

theorem next_eq_exhausted_or_ok (hrows : ∀ row ∈ table.rows, row.IsReadable) :
    next routers table = .error .exhausted ∨ ∃ found, next routers table = .ok found := by
  rw [next_eq hpools hrows]
  cases routers.findSome? (·.pick? table) with
  | none => exact .inl rfl
  | some found => exact .inr ⟨found, rfl⟩

theorem IsPick.le_position (h : IsPick routers table position found)
    (hrows : ∀ row ∈ table.rows, row.IsReadable) {count : Nat}
    (hpassed : ∀ r ∈ routers.take count, r.pick? table = none) : count ≤ position := by
  obtain ⟨front, r, back, rfl, rfl, -, hr⟩ := (isPick_iff hpools hrows).mp h
  by_contra hlt
  have hmem : r ∈ (front ++ r :: back).take count :=
    List.mem_take_iff_getElem.mpr ⟨front.length, by simp; omega, by simp⟩
  rw [hpassed r hmem] at hr
  cases hr

theorem IsPick.passed_pick? (h : IsPick routers table position found)
    (hrows : ∀ row ∈ table.rows, row.IsReadable) :
    ∀ r ∈ routers.take position, r.pick? table = none :=
  (next_eq_exhausted_iff (fun r hr => hpools r (List.mem_of_mem_take hr)) hrows).mp h.passed

theorem IsPick.unique {position' : Nat} {found' : Allocation} (h : IsPick routers table position found)
    (h' : IsPick routers table position' found') (hrows : ∀ row ∈ table.rows, row.IsReadable) :
    position = position' ∧ found = found' := by
  refine ⟨Nat.le_antisymm ?_ ?_, ?_⟩
  · exact h'.le_position hpools hrows (h.passed_pick? hpools hrows)
  · exact h.le_position hpools hrows (h'.passed_pick? hpools hrows)
  · have hfound := (next_eq_ok_iff_isPick hpools hrows).mpr ⟨_, h⟩
    rw [(next_eq_ok_iff_isPick hpools hrows).mpr ⟨_, h'⟩] at hfound
    exact (Except.ok.inj hfound).symm

theorem next_eq_exhausted_of_subset (hrows : ∀ row ∈ other.rows, row.IsReadable)
    (hsub : table.rows ⊆ other.rows) (h : next routers table = .error .exhausted) :
    next routers other = .error .exhausted :=
  (next_eq_exhausted_iff hpools hrows).mpr fun r hr =>
    Router.pick?_eq_none_of_subset
      ((next_eq_exhausted_iff hpools fun row hrow => hrows row (hsub hrow)).mp h r hr) hsub

namespace Fills

theorem le_positions (h : Fills routers table steps after)
    (hrows : ∀ row ∈ table.rows, row.IsReadable) {count : Nat}
    (hpassed : ∀ r ∈ routers.take count, r.pick? table = none) : ∀ step ∈ steps, count ≤ step.1 := by
  induction h with
  | nil => nofun
  | cons nodeKey nodeName hpick _ ih =>
    refine List.forall_mem_cons.mpr ⟨hpick.le_position hpools hrows hpassed, ?_⟩
    exact ih (hpick.isReadable_push hrows nodeKey nodeName) fun r hr =>
      Router.pick?_eq_none_of_subset (hpassed r hr) (List.subset_append_left _ _)

theorem pairwise_positions (h : Fills routers table steps after)
    (hrows : ∀ row ∈ table.rows, row.IsReadable) : (steps.map Prod.fst).Pairwise (· ≤ ·) := by
  induction h with
  | nil => exact .nil
  | cons nodeKey nodeName hpick hrest ih =>
    have hpush := hpick.isReadable_push hrows nodeKey nodeName
    refine List.pairwise_cons.mpr ⟨?_, ih hpush⟩
    rw [List.forall_mem_map]
    have hpassed := hpick.passed_pick? hpools hrows
    exact hrest.le_positions hpools hpush fun r hr =>
      Router.pick?_eq_none_of_subset (hpassed r hr) (List.subset_append_left _ _)

theorem nodup_nodeIPs (h : Fills routers table steps after)
    (hrows : ∀ row ∈ table.rows, row.IsReadable) :
    (steps.map (·.2.nodeIP)).Nodup ∧ (∀ step ∈ steps, step.2.nodeIP ∉ table.nodeIPs) ∧
      steps.map (·.2.nodeIP) ⊆ routers.flatMap fun r => r.nodes.map (·.address.text) := by
  induction h with
  | nil => exact ⟨.nil, nofun, List.nil_subset _⟩
  | @cons table after position found steps nodeKey nodeName hpick hrest ih =>
    obtain ⟨hnodup, hfresh, hsub⟩ := ih (hpick.isReadable_push hrows nodeKey nodeName)
    have hpush : (table.push { found with nodeKey, nodeName }).nodeIPs =
        table.nodeIPs ++ [found.nodeIP] := List.map_append
    rw [hpush] at hfresh
    have hfound : found.nodeIP ∉ table.nodeIPs :=
      nodeIP_not_mem_of_next ((next_eq_ok_iff_isPick hpools hrows).mpr ⟨_, hpick⟩)
    obtain ⟨front, r, back, hsplit, -, -, hr⟩ := (isPick_iff hpools hrows).mp hpick
    obtain ⟨node, hnode, pod, -, rfl⟩ := Router.pick?_eq_some hr
    refine ⟨List.nodup_cons.mpr ⟨?_, hnodup⟩, List.forall_mem_cons.mpr ⟨hfound, ?_⟩,
      List.cons_subset.mpr ⟨?_, hsub⟩⟩
    · intro hmem
      obtain ⟨step, hstep, heq⟩ := List.mem_map.mp hmem
      exact hfresh step hstep (by simp [heq])
    · exact fun step hstep hmem => hfresh step hstep (List.mem_append_left _ hmem)
    · exact List.mem_flatMap.mpr ⟨r, by simp [hsplit], List.mem_map_of_mem hnode⟩

theorem length_le (h : Fills routers table steps after)
    (hrows : ∀ row ∈ table.rows, row.IsReadable) :
    steps.length ≤ (routers.flatMap fun r => r.nodes.map (·.address.text)).length := by
  obtain ⟨hnodup, -, hsub⟩ := h.nodup_nodeIPs hpools hrows
  rw [← List.length_map (fun step : Nat × Allocation => step.2.nodeIP)]
  exact (List.subperm_of_subset hnodup hsub).length_le

end Fills

namespace EndsAfter

theorem zero (hrows : ∀ row ∈ table.rows, row.IsReadable)
    (hnext : next routers table = .error .exhausted) : EndsAfter routers table 0 where
  reached := ⟨[], table, .nil table, rfl⟩
  goesOn := nofun
  ends := by
    intro steps after hrun _
    cases hrun with
    | nil => exact ⟨rfl, hnext⟩
    | cons _ _ hpick _ =>
      rw [(next_eq_ok_iff_isPick hpools hrows).mpr ⟨_, hpick⟩] at hnext
      cases hnext

theorem succ {total : Nat} (hrows : ∀ row ∈ table.rows, row.IsReadable)
    (hpick : IsPick routers table position found) (h : EndsAfter routers (table.push found) total) :
    EndsAfter routers table (total + 1) := by
  -- the first step is the same for every run, and the names it puts into the table do not count
  have htail {first : Nat × Allocation} {rest : List (Nat × Allocation)} {after : Table}
      (hrun : Fills routers table (first :: rest) after) :
      ∃ after', Fills routers (table.push found) rest after' ∧
        next routers after = next routers after' := by
    cases hrun with
    | cons nodeKey nodeName hfirst hrest =>
      obtain ⟨-, rfl⟩ := hpick.unique hpools hfirst hrows
      have hpush : (table.push { found with nodeKey, nodeName }).addresses =
          (table.push found).addresses := by
        rw [Table.addresses_push, Table.addresses_push]
      obtain ⟨after', hafter, hsame⟩ := hrest.congr hpush
      exact ⟨after', hafter, next_congr routers hsame⟩
  refine ⟨?_, ?_, ?_⟩
  · obtain ⟨steps, after, hrun, hlength⟩ := h.reached
    exact ⟨_, after, .cons found.nodeKey found.nodeName hpick hrun, congrArg (· + 1) hlength⟩
  · intro steps after hrun hlt
    cases steps with
    | nil =>
      cases hrun
      exact ⟨found, (next_eq_ok_iff_isPick hpools hrows).mpr ⟨_, hpick⟩⟩
    | cons first rest =>
      obtain ⟨after', hrest, hsame⟩ := htail hrun
      rw [hsame]
      exact h.goesOn rest after' hrest (Nat.lt_of_succ_lt_succ hlt)
  · intro steps after hrun hle
    cases steps with
    | nil => cases hle
    | cons first rest =>
      obtain ⟨after', hrest, hsame⟩ := htail hrun
      obtain ⟨hlength, hexhausted⟩ := h.ends rest after' hrest (Nat.le_of_succ_le_succ hle)
      exact ⟨congrArg (· + 1) hlength, hsame.trans hexhausted⟩

end EndsAfter

theorem exists_endsAfter_of_length_le {bound : Nat} (hrows : ∀ row ∈ table.rows, row.IsReadable)
    (hbound : ∀ steps after, Fills routers table steps after → steps.length ≤ bound) :
    ∃ total, EndsAfter routers table total := by
  induction bound using Nat.strongRecOn generalizing table with
  | ind bound ih =>
    rcases next_eq_exhausted_or_ok hpools hrows with hnext | ⟨found, hnext⟩
    · exact ⟨0, .zero hpools hrows hnext⟩
    · obtain ⟨position, hpick⟩ := (next_eq_ok_iff_isPick hpools hrows).mp hnext
      have hpush : ∀ row ∈ (table.push found).rows, row.IsReadable :=
        hpick.isReadable_push hrows found.nodeKey found.nodeName
      have hlonger : ∀ steps after, Fills routers (table.push found) steps after →
          steps.length + 1 ≤ bound := fun steps after hrun =>
        hbound _ _ (.cons found.nodeKey found.nodeName hpick hrun)
      have hpos : 0 < bound := hlonger _ _ (.nil _)
      obtain ⟨total, htotal⟩ := ih (bound - 1) (Nat.sub_one_lt_of_lt hpos) hpush
        fun steps after hrun => Nat.le_sub_one_of_lt (hlonger steps after hrun)
      exact ⟨total + 1, htotal.succ hpools hrows hpick⟩

theorem exists_endsAfter (hrows : ∀ row ∈ table.rows, row.IsReadable) :
    ∃ total, EndsAfter routers table total :=
  exists_endsAfter_of_length_le hpools hrows fun _ _ hrun => hrun.length_le hpools hrows

end Pools

end Allocation

end TunnelFleet
