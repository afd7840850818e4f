import TunnelFleet.Proofs.Allocation.Capacity

namespace TunnelFleet

namespace Router

open Allocation

structure Owns (r : Router) (row : Allocation) : Prop where
  readable : row.IsReadable
  node : ∀ a, Holds row.nodeIP a → Holds r.nodePool a
  pod : ∀ a, Holds row.podNet a → Holds r.podPool a

variable {r s : Router} {table : Table} {found : Allocation}

theorem owns_of_pick? (h : r.pick? table = some found) : r.Owns found := by
  obtain ⟨node, hnode, pod, hpod, rfl⟩ := pick?_eq_some h
  refine ⟨isReadable_row node pod, fun a ha => ?_, fun a ha => ?_⟩
  · exact holds_of_mem_candidates hnode ((holds_address_text hnode).mp ha)
  · exact holds_of_mem_candidates hpod (holds_text.mp ha)

theorem publicKey_of_pick? (h : r.pick? table = some found) : found.routerKey = r.publicKey := by
  obtain ⟨node, -, pod, -, rfl⟩ := pick?_eq_some h
  rfl

theorem Owns.not_owns_of_isApart (h : s.Owns found) (hapart : r.IsApart s) : ¬ r.Owns found := by
  intro hr
  obtain ⟨⟨b, hb⟩, -⟩ := h.readable
  have hholds : Holds found.nodeIP b.address := ⟨b, hb, b.contains_address⟩
  exact hapart.node b.address ⟨hr.node _ hholds, h.node _ hholds⟩

end Router

namespace Allocation

variable {routers : List Router} {table : Table} {found : Allocation}

/-- The router that a search took the addresses from: those before it have nothing to give. -/
structure IsTakenFrom (routers : List Router) (table : Table) (found : Allocation)
    (front : List Router) (owner : Router) : Prop where
  split : ∃ back, routers = front ++ owner :: back
  passed : ∀ r ∈ front, r.pick? table = none
  picked : owner.pick? table = some found

theorem exists_owner_of_search
    (h : search (blocks table.nodeIPs) (blocks table.podNets) routers = .ok found) :
    ∃ front owner, IsTakenFrom routers table found front owner := by
  induction routers with
  | nil => cases h
  | cons r rest ih =>
    rw [search] at h
    obtain ⟨nodePool, hnode, h⟩ := bind_eq_ok_iff.mp h
    obtain ⟨podPool, hpod, h⟩ := bind_eq_ok_iff.mp h
    rw [ofRouter?_eq_pick? table (block_eq_ok_iff.mp hnode) (block_eq_ok_iff.mp hpod)] at h
    cases hpick : r.pick? table with
    | some first =>
      rw [hpick] at h
      obtain rfl := Except.ok.inj h
      exact ⟨[], r, ⟨rest, rfl⟩, List.forall_mem_nil _, hpick⟩
    | none =>
      rw [hpick] at h
      obtain ⟨front, owner, ⟨back, rfl⟩, hpassed, hpicked⟩ := ih h
      exact ⟨r :: front, owner, ⟨back, rfl⟩, List.forall_mem_cons.mpr ⟨hpick, hpassed⟩, hpicked⟩

theorem exists_block_of_mapM {role : BlockRole} {column : Allocation → String} {taken : List Block}
    (h : table.rows.mapM (fun row => block role (column row)) = .ok taken) :
    ∀ row ∈ table.rows, ∃ b, Block.ofText (column row) = .ok b := by
  intro row hrow
  obtain ⟨b, -, hb⟩ := exists_of_forall₂ (mapM_eq_ok_iff.mp h) hrow
  exact ⟨b, block_eq_ok_iff.mp hb⟩

theorem isReadable_of_next (h : next routers table = .ok found) :
    ∀ row ∈ table.rows, row.IsReadable := by
  obtain ⟨nodeIPs, hnodes, h⟩ := bind_eq_ok_iff.mp h
  obtain ⟨podNets, hpods, -⟩ := bind_eq_ok_iff.mp h
  intro row hrow
  exact ⟨exists_block_of_mapM hnodes row hrow, exists_block_of_mapM hpods row hrow⟩

theorem exists_owner_of_next (h : next routers table = .ok found) :
    ∃ front owner, IsTakenFrom routers table found front owner := by
  rw [next_eq_search (isReadable_of_next h)] at h
  exact exists_owner_of_search h

end Allocation

end TunnelFleet
