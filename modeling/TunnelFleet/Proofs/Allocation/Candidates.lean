import TunnelFleet.Proofs.Allocation.Search

namespace TunnelFleet

namespace Allocation

def candidates (pool : String) (len : Nat) : List Block :=
  match Block.ofText pool with
  | .ok pool => (Walk.start pool len).blocks
  | .error _ => []

def blocks (texts : List String) : List Block :=
  texts.filterMap fun s => (Block.ofText s).toOption

def IsTaken (texts : List String) (b : Block) : Prop :=
  ∃ s ∈ texts, ∃ a, Holds s a ∧ b.contains a = true

variable {texts : List String} {pool : String} {len : Nat} {b : Block}

theorem holds_of_mem_candidates {a : Address} (h : b ∈ candidates pool len)
    (ha : b.contains a = true) : Holds pool a := by
  unfold candidates at h
  split at h
  next found hfound => exact ⟨found, hfound, Walk.contains_of_mem_blocks h ha⟩
  next => cases h

theorem pairwise_candidates (pool : String) (len : Nat) :
    (candidates pool len).Pairwise Block.IsApart := by
  unfold candidates
  split
  · exact Walk.pairwise_blocks _
  · exact .nil

theorem len_of_mem_candidates (h : b ∈ candidates pool len) : b.len = min len 32 := by
  unfold candidates at h
  split at h
  next => exact (Walk.isAhead_of_mem h).len
  next => cases h

theorem isFree_blocks_eq_false_iff : isFree (blocks texts) b = false ↔ IsTaken texts b := by
  rw [isFree, Bool.not_eq_false', List.any_eq_true]
  constructor
  · rintro ⟨c, hc, hoverlaps⟩
    obtain ⟨s, hs, hread⟩ := List.mem_filterMap.mp hc
    obtain ⟨a, hca, hba⟩ := Block.overlaps_iff.mp hoverlaps
    exact ⟨s, hs, a, ⟨c, eq_ok_of_toOption hread, hca⟩, hba⟩
  · rintro ⟨s, hs, a, ⟨c, hread, hca⟩, hba⟩
    have hc : c ∈ blocks texts := List.mem_filterMap.mpr ⟨s, hs, by rw [hread]; rfl⟩
    exact ⟨c, hc, Block.overlaps_iff.mpr ⟨a, hca, hba⟩⟩

theorem find?_isFree_eq_none_iff {offered : List Block} :
    offered.find? (isFree (blocks texts)) = none ↔ ∀ b ∈ offered, IsTaken texts b := by
  simp only [List.find?_eq_none, Bool.not_eq_true, isFree_blocks_eq_false_iff]

theorem find?_isFree_eq_some {offered : List Block} {k : Nat} (hk : k < offered.length)
    (hpast : ∀ b ∈ offered.take k, IsTaken texts b) (hfree : ¬ IsTaken texts offered[k]) :
    offered.find? (isFree (blocks texts)) = some offered[k] := by
  refine List.find?_eq_some_iff_getElem.mpr ⟨?_, k, hk, rfl, fun j hj => ?_⟩
  · rwa [← Bool.not_eq_false, isFree_blocks_eq_false_iff]
  · rw [Bool.not_eq_true', isFree_blocks_eq_false_iff]
    exact hpast _ (List.mem_take_iff_getElem.mpr ⟨j, by omega, rfl⟩)

theorem IsTaken.mono {more : List String} (h : IsTaken texts b) (hsub : texts ⊆ more) :
    IsTaken more b :=
  h.imp fun _ hs => ⟨hsub hs.1, hs.2⟩

theorem mapM_block_eq_ok {role : BlockRole} {column : Allocation → String} {rows : List Allocation}
    (h : ∀ row ∈ rows, ∃ b, Block.ofText (column row) = .ok b) :
    rows.mapM (fun row => block role (column row)) = .ok (blocks (rows.map column)) := by
  induction rows with
  | nil => rfl
  | cons row rest ih =>
    obtain ⟨⟨b, hb⟩, hrest⟩ := List.forall_mem_cons.mp h
    rw [List.mapM_cons, block_eq_ok_iff.mpr hb, ih hrest]
    simp only [blocks, List.map_cons, List.filterMap_cons, hb]
    rfl

end Allocation

namespace Router

open Allocation

def nodes (r : Router) : List Block :=
  candidates r.nodePool 32

def pods (r : Router) : List Block :=
  candidates r.podPool r.podLen

def row (r : Router) (node pod : Block) : Allocation :=
  ⟨"", r.publicKey, "", node.address.text, pod.text⟩

def rows (r : Router) : List Allocation :=
  List.zipWith r.row r.nodes r.pods

structure HasPools (r : Router) : Prop where
  nodePool : ∃ pool, Block.ofText r.nodePool = .ok pool
  podPool : ∃ pool, Block.ofText r.podPool = .ok pool

structure IsApart (r s : Router) : Prop where
  node : ∀ a, ¬ (Holds r.nodePool a ∧ Holds s.nodePool a)
  pod : ∀ a, ¬ (Holds r.podPool a ∧ Holds s.podPool a)

end Router

namespace Table

def nodeIPs (table : Table) : List String :=
  table.rows.map (·.nodeIP)

def podNets (table : Table) : List String :=
  table.rows.map (·.podNet)

end Table

namespace Router

open Allocation

def pick? (r : Router) (table : Table) : Option Allocation := do
  let node ← r.nodes.find? (isFree (blocks table.nodeIPs))
  let pod ← r.pods.find? (isFree (blocks table.podNets))
  some (r.row node pod)

variable {r : Router} {table other : Table} {found : Allocation}

theorem pick?_eq_some (h : r.pick? table = some found) :
    ∃ node ∈ r.nodes, ∃ pod ∈ r.pods, found = r.row node pod := by
  obtain ⟨node, hnode, h⟩ := Option.bind_eq_some_iff.mp h
  obtain ⟨pod, hpod, h⟩ := Option.bind_eq_some_iff.mp h
  exact ⟨node, List.mem_of_find?_eq_some hnode, pod, List.mem_of_find?_eq_some hpod,
    (Option.some.inj h).symm⟩

theorem pick?_eq_none_iff : r.pick? table = none ↔
    (∀ b ∈ r.nodes, IsTaken table.nodeIPs b) ∨ ∀ b ∈ r.pods, IsTaken table.podNets b := by
  rw [← find?_isFree_eq_none_iff, ← find?_isFree_eq_none_iff, pick?]
  cases r.nodes.find? (isFree (blocks table.nodeIPs)) with
  | none => simp
  | some node =>
    cases r.pods.find? (isFree (blocks table.podNets)) with
    | none => simp
    | some pod => simp

theorem pick?_eq_none_of_subset (h : r.pick? table = none) (hsub : table.rows ⊆ other.rows) :
    r.pick? other = none :=
  pick?_eq_none_iff.mpr <| (pick?_eq_none_iff.mp h).imp
    (fun htaken b hb => (htaken b hb).mono (List.map_subset _ hsub))
    fun htaken b hb => (htaken b hb).mono (List.map_subset _ hsub)

end Router

namespace Allocation

variable {routers : List Router} {table : Table} {found : Allocation}

theorem ofRouter?_eq_pick? (table : Table) {r : Router} {nodePool podPool : Block}
    (hnode : Block.ofText r.nodePool = .ok nodePool) (hpod : Block.ofText r.podPool = .ok podPool) :
    ofRouter? (blocks table.nodeIPs) (blocks table.podNets) r nodePool podPool = r.pick? table := by
  rw [ofRouter?, Router.pick?, Router.nodes, Router.pods, candidates, candidates, hnode, hpod,
    Walk.find?_eq, Walk.find?_eq]
  rfl

theorem search_eq (table : Table) (h : ∀ r ∈ routers, r.HasPools) :
    search (blocks table.nodeIPs) (blocks table.podNets) routers =
      match routers.findSome? (·.pick? table) with
      | some found => .ok found
      | none => .error .exhausted := by
  induction routers with
  | nil => rfl
  | cons r rest ih =>
    obtain ⟨⟨⟨nodePool, hnode⟩, ⟨podPool, hpod⟩⟩, hrest⟩ := List.forall_mem_cons.mp h
    have hpick := ofRouter?_eq_pick? table hnode hpod
    rw [search, block_eq_ok_iff.mpr hnode, block_eq_ok_iff.mpr hpod, List.findSome?_cons]
    simp only [bind, Except.bind, hpick]
    cases r.pick? table with
    | none => exact ih hrest
    | some found => rfl

theorem next_eq_search (hrows : ∀ row ∈ table.rows, row.IsReadable) :
    next routers table = search (blocks table.nodeIPs) (blocks table.podNets) routers := by
  rw [next, mapM_block_eq_ok fun row hrow => (hrows row hrow).1,
    mapM_block_eq_ok fun row hrow => (hrows row hrow).2]
  rfl

theorem next_eq (hpools : ∀ r ∈ routers, r.HasPools) (hrows : ∀ row ∈ table.rows, row.IsReadable) :
    next routers table =
      match routers.findSome? (·.pick? table) with
      | some found => .ok found
      | none => .error .exhausted := by
  rw [next_eq_search hrows]
  exact search_eq table hpools

theorem next_eq_exhausted_iff (hpools : ∀ r ∈ routers, r.HasPools)
    (hrows : ∀ row ∈ table.rows, row.IsReadable) :
    next routers table = .error .exhausted ↔ ∀ r ∈ routers, r.pick? table = none := by
  rw [next_eq hpools hrows, ← List.findSome?_eq_none_iff]
  cases routers.findSome? (·.pick? table) with
  | none => simp
  | some found => simp

theorem next_eq_ok_iff (hpools : ∀ r ∈ routers, r.HasPools)
    (hrows : ∀ row ∈ table.rows, row.IsReadable) :
    next routers table = .ok found ↔ routers.findSome? (·.pick? table) = some found := by
  rw [next_eq hpools hrows]
  cases routers.findSome? (·.pick? table) with
  | none => simp
  | some first => simp

end Allocation

end TunnelFleet
