import Mathlib.Order.Bounds.Basic
import Mathlib.Order.Interval.Set.Basic
import Mathlib.Order.Nat
import TunnelFleet.Proofs.Address.Steps
import TunnelFleet.Proofs.Allocation.Owner

namespace TunnelFleet

namespace Allocation

/-- The numbers in the aligned block of `2 ^ (32 - len)` numbers that holds a given one. -/
def alignedBlock (len n : Nat) : Set Nat :=
  {x | x / 2 ^ (32 - len) = n / 2 ^ (32 - len)}

/-- A number between a pool's written address and its last one, in no block that is taken. -/
structure IsOpenAddress (pool : Block) (taken : List String) (x : Nat) : Prop where
  after : pool.address.val < x
  before : x < pool.broadcast.val
  free : ∀ s ∈ taken, ∀ a, Holds s a → a.val ≠ x

/-- So many steps from a pool's written address, the aligned block lies in the pool, leaves its last
address alone and meets no block that is taken. -/
structure IsOpenStep (pool : Block) (len : Nat) (taken : List String) (k : Nat) : Prop where
  pos : 1 ≤ k
  inside : alignedBlock len (pool.address.val + k * 2 ^ (32 - len)) ⊆
    Set.Icc pool.network.val pool.broadcast.val
  last : pool.broadcast.val ∉ alignedBlock len (pool.address.val + k * 2 ^ (32 - len))
  free : ∀ s ∈ taken, ∀ a, Holds s a →
    a.val ∉ alignedBlock len (pool.address.val + k * 2 ^ (32 - len))

variable {pool b : Block} {len n k : Nat} {texts : List String}

theorem mem_alignedBlock {x : Nat} :
    x ∈ alignedBlock len n ↔ x / 2 ^ (32 - len) = n / 2 ^ (32 - len) :=
  Iff.rfl

theorem contains_iff_mem_alignedBlock {a : Address} :
    b.contains a = true ↔ a.val ∈ alignedBlock b.len b.address.val := by
  rw [Block.contains_iff, b.size_eq_two_pow, mem_alignedBlock]

theorem isTaken_iff : IsTaken texts b ↔
    ∃ s ∈ texts, ∃ a, Holds s a ∧ a.val ∈ alignedBlock b.len b.address.val := by
  simp only [IsTaken, contains_iff_mem_alignedBlock]

theorem len_le_of_alignedBlock_subset
    (h : alignedBlock len n ⊆ Set.Icc pool.network.val pool.broadcast.val) : pool.len ≤ len := by
  have hpos : 0 < 2 ^ (32 - len) := Nat.two_pow_pos _
  have hfirst : n / 2 ^ (32 - len) * 2 ^ (32 - len) ∈ alignedBlock len n := by
    rw [mem_alignedBlock, Nat.mul_div_cancel _ hpos]
  have hlast : n / 2 ^ (32 - len) * 2 ^ (32 - len) + (2 ^ (32 - len) - 1) ∈ alignedBlock len n := by
    rw [mem_alignedBlock, Nat.add_comm, Nat.add_mul_div_right _ _ hpos,
      Nat.div_eq_of_lt (Nat.sub_lt hpos Nat.one_pos), Nat.zero_add]
  have hlow := (h hfirst).1
  have hhigh := (h hlast).2
  have hbroadcast : pool.broadcast.val = pool.network.val + (pool.size - 1) := rfl
  have hsize : 2 ^ (32 - len) ≤ 2 ^ (32 - pool.len) := by
    have hpool := pool.size_pos
    rw [← pool.size_eq_two_pow]
    omega
  have hexp := (Nat.pow_le_pow_iff_right (by decide)).mp hsize
  have hlen := pool.len_le
  omega

theorem isOpenStep_succ_iff :
    IsOpenStep pool (min len 32) texts (n + 1) ↔
      ∃ b, (Walk.start pool len).call n = some b ∧ ¬ IsTaken texts b := by
  constructor
  · intro h
    -- the number itself is in the pool, so its block is not behind the last one, nor is it the last
    have hself : pool.address.val + (n + 1) * 2 ^ (32 - min len 32) ∈
        alignedBlock (min len 32) (pool.address.val + (n + 1) * 2 ^ (32 - min len 32)) := rfl
    have hle := Nat.div_le_div_right (c := 2 ^ (32 - min len 32)) (h.inside hself).2
    have hne := h.last
    rw [mem_alignedBlock] at hne
    have hn : n < pool.stepCount (min len 32) :=
      Block.lt_stepCount_iff.mpr ⟨len_le_of_alignedBlock_subset h.inside, by omega⟩
    have hplace := Walk.place_call_start pool len n
    rw [if_pos hn, Option.map_eq_some_iff] at hplace
    obtain ⟨b, hcall, hb⟩ := hplace
    obtain ⟨haddress, hlen⟩ := Block.place_eq_iff.mp hb
    refine ⟨b, hcall, fun htaken => ?_⟩
    obtain ⟨s, hs, a, hholds, ha⟩ := isTaken_iff.mp htaken
    rw [hlen, haddress] at ha
    exact h.free s hs a hholds ha
  · rintro ⟨b, hcall, hfree⟩
    obtain ⟨hn, haddress, hlen⟩ := Walk.call_start_eq_some_iff.mp hcall
    have hlt := (Block.lt_stepCount_iff.mp hn).2
    have hlow := pool.network_le_address
    rw [isTaken_iff, hlen, haddress] at hfree
    refine ⟨Nat.succ_pos n, fun x hx => ?_, ?_, fun s hs a hholds ha => ?_⟩
    · rw [mem_alignedBlock] at hx
      have hstep : pool.address.val / 2 ^ (32 - min len 32) < x / 2 ^ (32 - min len 32) := by
        rw [hx, Nat.add_mul_div_right _ _ (Nat.two_pow_pos _)]
        omega
      have hbehind := Nat.lt_of_div_lt_div hstep
      have hbefore := Nat.lt_of_div_lt_div (hx ▸ hlt)
      exact ⟨by omega, by omega⟩
    · rw [mem_alignedBlock]
      omega
    · exact hfree ⟨s, hs, a, hholds, ha⟩

theorem IsOpenStep.exists_call (h : IsOpenStep pool (min len 32) texts k) :
    ∃ m b, k = m + 1 ∧ (Walk.start pool len).call m = some b ∧ ¬ IsTaken texts b := by
  obtain ⟨m, rfl⟩ : ∃ m, k = m + 1 := ⟨k - 1, (Nat.sub_add_cancel h.pos).symm⟩
  obtain ⟨b, hcall, hfree⟩ := isOpenStep_succ_iff.mp h
  exact ⟨m, b, rfl, hcall, hfree⟩

theorem isOpenStep_single_iff :
    IsOpenStep pool 32 texts k ↔ IsOpenAddress pool texts (pool.address.val + k) := by
  have hsingle : alignedBlock 32 (pool.address.val + k * 2 ^ (32 - 32)) = {pool.address.val + k} := by
    ext x
    simp [mem_alignedBlock]
  have hlow := pool.network_le_address
  constructor
  · intro h
    have hinside := h.inside
    have hlast := h.last
    have hpos := h.pos
    rw [hsingle] at hinside hlast
    have hhigh := (hinside rfl).2
    have hne : pool.broadcast.val ≠ pool.address.val + k := hlast
    refine ⟨by omega, by omega, fun s hs a ha => ?_⟩
    have hfree := h.free s hs a ha
    rwa [hsingle] at hfree
  · intro h
    have hafter := h.after
    have hbefore := h.before
    refine ⟨by omega, ?_, ?_, fun s hs a ha => ?_⟩
    · rw [hsingle]
      rintro x rfl
      exact ⟨by omega, by omega⟩
    · rw [hsingle]
      exact Nat.ne_of_gt hbefore
    · rw [hsingle]
      exact h.free s hs a ha

theorem IsOpenAddress.exists_step {x : Nat} (h : IsOpenAddress pool texts x) :
    ∃ k, x = pool.address.val + k ∧ IsOpenStep pool 32 texts k := by
  obtain ⟨k, rfl⟩ := Nat.exists_eq_add_of_le (Nat.le_of_lt h.after)
  exact ⟨k, rfl, isOpenStep_single_iff.mpr h⟩

theorem isLeast_of_find? (h : (Walk.start pool len).blocks.find? (isFree (blocks texts)) = some b) :
    ∃ k, IsLeast {k | IsOpenStep pool (min len 32) texts k} k ∧
      b.address.val = pool.address.val + k * 2 ^ (32 - min len 32) ∧ b.len = min len 32 := by
  obtain ⟨hfree, n, hn, hb, hbefore⟩ := List.find?_eq_some_iff_getElem.mp h
  have hcall : (Walk.start pool len).call n = some b := by
    rw [← Walk.getElem?_blocks, List.getElem?_eq_getElem hn, hb]
  have hopen : ¬ IsTaken texts b := by
    rw [← isFree_blocks_eq_false_iff, hfree]
    decide
  obtain ⟨-, haddress, hlen⟩ := Walk.call_start_eq_some_iff.mp hcall
  refine ⟨n + 1, ⟨isOpenStep_succ_iff.mpr ⟨b, hcall, hopen⟩, fun k hk => ?_⟩, haddress, hlen⟩
  obtain ⟨m, c, rfl, hc, htaken⟩ := hk.exists_call
  by_contra hlt
  have hm : m < n := by omega
  rw [← Walk.getElem?_blocks, List.getElem?_eq_some_iff] at hc
  obtain ⟨hlength, rfl⟩ := hc
  have hmiss := hbefore m hm
  rw [Bool.not_eq_true', isFree_blocks_eq_false_iff] at hmiss
  exact htaken hmiss

theorem not_isOpenStep_of_find?
    (h : (Walk.start pool len).blocks.find? (isFree (blocks texts)) = none) (k : Nat) :
    ¬ IsOpenStep pool (min len 32) texts k := by
  intro hk
  obtain ⟨m, c, rfl, hc, htaken⟩ := hk.exists_call
  exact htaken (find?_isFree_eq_none_iff.mp h c (Walk.mem_blocks_of_call hc))

theorem isLeast_address_of_find?
    (h : (Walk.start pool 32).blocks.find? (isFree (blocks texts)) = some b) :
    IsLeast {x | IsOpenAddress pool texts x} b.address.val := by
  obtain ⟨k, ⟨hopen, hleast⟩, haddress, -⟩ := isLeast_of_find? h
  have hvalue : b.address.val = pool.address.val + k := by
    rw [haddress]
    simp
  rw [hvalue]
  refine ⟨isOpenStep_single_iff.mp hopen, fun x hx => ?_⟩
  obtain ⟨j, rfl, hj⟩ := hx.exists_step
  exact Nat.add_le_add_left (hleast hj) _

theorem not_isOpenAddress_of_find?
    (h : (Walk.start pool 32).blocks.find? (isFree (blocks texts)) = none) (x : Nat) :
    ¬ IsOpenAddress pool texts x := by
  intro hx
  obtain ⟨j, rfl, hj⟩ := hx.exists_step
  exact not_isOpenStep_of_find? h j hj

theorem exists_pool_of_find? {text : String} {wanted : Block → Bool}
    (h : (candidates text len).find? wanted = some b) :
    ∃ pool, Block.ofText text = .ok pool ∧ (Walk.start pool len).blocks.find? wanted = some b := by
  unfold candidates at h
  split at h
  next pool hpool => exact ⟨pool, hpool, h⟩
  next => cases h

theorem candidates_eq {text : String} (h : Block.ofText text = .ok pool) (len : Nat) :
    candidates text len = (Walk.start pool len).blocks := by
  rw [candidates, h]

end Allocation

namespace Router

open Allocation

/-- The pools of a router can be read, and the one has an open address and the other an open step. -/
def IsOpen (r : Router) (table : Table) : Prop :=
  ∃ nodePool podPool, Block.ofText r.nodePool = .ok nodePool ∧ Block.ofText r.podPool = .ok podPool ∧
    (∃ x, IsOpenAddress nodePool table.nodeIPs x) ∧
    ∃ k, IsOpenStep podPool (min r.podLen 32) table.podNets k

/-- What an open router gives: its lowest open address and the block at its lowest open step, which
keeps the host bits of the pool's written address. -/
structure Gives (r : Router) (table : Table) (node : Address) (pod : Block) : Prop where
  node : ∃ pool, Block.ofText r.nodePool = .ok pool ∧
    IsLeast {x | IsOpenAddress pool table.nodeIPs x} node.val
  pod : ∃ pool k, Block.ofText r.podPool = .ok pool ∧
    IsLeast {k | IsOpenStep pool (min r.podLen 32) table.podNets k} k ∧
    pod.address.val = pool.address.val + k * 2 ^ (32 - min r.podLen 32) ∧
    pod.len = min r.podLen 32

/-- The first address and the first block in the walks of a router that are clear of the taken blocks,
before they are written. -/
structure Chooses (r : Router) (nodes pods : List Block) (node pod : Block) : Prop where
  node : ∃ pool, Block.ofText r.nodePool = .ok pool ∧
    (Walk.start pool 32).find? (isFree nodes) = some node
  pod : ∃ pool, Block.ofText r.podPool = .ok pool ∧
    (Walk.start pool r.podLen).find? (isFree pods) = some pod

variable {r : Router} {table : Table} {found : Allocation}

theorem exists_chooses_of_pick? (h : r.pick? table = some found) :
    ∃ node pod, r.Chooses (blocks table.nodeIPs) (blocks table.podNets) node pod ∧
      found = r.row node pod := by
  obtain ⟨node, hnode, h⟩ := Option.bind_eq_some_iff.mp h
  obtain ⟨pod, hpod, h⟩ := Option.bind_eq_some_iff.mp h
  obtain ⟨nodePool, hnodePool, hfirstNode⟩ := exists_pool_of_find? hnode
  obtain ⟨podPool, hpodPool, hfirstPod⟩ := exists_pool_of_find? hpod
  rw [← Walk.find?_eq] at hfirstNode hfirstPod
  exact ⟨node, pod, ⟨⟨nodePool, hnodePool, hfirstNode⟩, ⟨podPool, hpodPool, hfirstPod⟩⟩,
    (Option.some.inj h).symm⟩

theorem Chooses.gives {node pod : Block}
    (h : r.Chooses (blocks table.nodeIPs) (blocks table.podNets) node pod) :
    r.Gives table node.address pod where
  node := by
    obtain ⟨pool, hpool, hfirst⟩ := h.node
    rw [Walk.find?_eq] at hfirst
    exact ⟨pool, hpool, isLeast_address_of_find? hfirst⟩
  pod := by
    obtain ⟨pool, hpool, hfirst⟩ := h.pod
    rw [Walk.find?_eq] at hfirst
    obtain ⟨k, hk, haddress, hlen⟩ := isLeast_of_find? hfirst
    exact ⟨pool, k, hpool, hk, haddress, hlen⟩

theorem gives_of_pick? (h : r.pick? table = some found) :
    ∃ node pod, r.Gives table node pod ∧ found = ⟨"", r.publicKey, "", node.text, pod.text⟩ := by
  obtain ⟨node, pod, hchooses, rfl⟩ := exists_chooses_of_pick? h
  exact ⟨node.address, pod, hchooses.gives, rfl⟩

theorem not_isOpen_of_pick? (h : r.pick? table = none) : ¬ r.IsOpen table := by
  rintro ⟨nodePool, podPool, hnodePool, hpodPool, ⟨x, hx⟩, k, hk⟩
  rw [pick?, nodes, pods, candidates_eq hnodePool, candidates_eq hpodPool] at h
  cases hnode : (Walk.start nodePool 32).blocks.find? (isFree (blocks table.nodeIPs)) with
  | none => exact not_isOpenAddress_of_find? hnode x hx
  | some node =>
    cases hpod : (Walk.start podPool r.podLen).blocks.find? (isFree (blocks table.podNets)) with
    | none => exact not_isOpenStep_of_find? hpod k hk
    | some pod =>
      rw [hnode, hpod] at h
      cases h

theorem Gives.isOpen {node : Address} {pod : Block} (h : r.Gives table node pod) :
    r.IsOpen table := by
  obtain ⟨nodePool, hnodePool, hnode, -⟩ := h.node
  obtain ⟨podPool, k, hpodPool, ⟨hk, -⟩, -⟩ := h.pod
  exact ⟨nodePool, podPool, hnodePool, hpodPool, ⟨_, hnode⟩, k, hk⟩

theorem isOpen_iff : r.IsOpen table ↔ ∃ found, r.pick? table = some found := by
  constructor
  · intro h
    cases hpick : r.pick? table with
    | none => exact absurd h (not_isOpen_of_pick? hpick)
    | some found => exact ⟨found, rfl⟩
  · rintro ⟨found, hpick⟩
    obtain ⟨node, pod, hgives, -⟩ := gives_of_pick? hpick
    exact hgives.isOpen

theorem IsOpen.hasPools (h : r.IsOpen table) : r.HasPools := by
  obtain ⟨nodePool, podPool, hnodePool, hpodPool, -⟩ := h
  exact ⟨⟨nodePool, hnodePool⟩, ⟨podPool, hpodPool⟩⟩

end Router

/-- The configuration is invalid: a search met a text that is no block. -/
def SearchError.IsOfText (e : SearchError) : Prop :=
  ∃ role text cause, Block.ofText text = .error cause ∧ e = .badBlock role text cause

namespace Allocation

variable {routers front rest : List Router} {table : Table} {r : Router} {found : Allocation}

theorem isOfText_of_block {role : BlockRole} {text : String} {e : SearchError}
    (h : block role text = .error e) : e.IsOfText := by
  unfold block at h
  split at h
  next => cases h
  next cause hcause => exact ⟨role, text, cause, hcause, (Except.error.inj h).symm⟩

theorem mapM_block_cases (table : Table) (role : BlockRole) (column : Allocation → String) :
    (∀ row ∈ table.rows, ∃ b, Block.ofText (column row) = .ok b) ∨
      ∃ e, (table.rows.mapM fun row => block role (column row)) = .error e ∧ e.IsOfText := by
  cases hread : table.rows.mapM fun row => block role (column row) with
  | error e =>
    obtain ⟨row, -, hrow⟩ := exists_of_mapM_eq_error hread
    exact .inr ⟨e, rfl, isOfText_of_block hrow⟩
  | ok taken => exact .inl (exists_block_of_mapM hread)

theorem exists_error_of_not_isReadable (routers : List Router)
    (h : ∃ row ∈ table.rows, ¬ row.IsReadable) :
    ∃ e, next routers table = .error e ∧ e.IsOfText := by
  obtain ⟨row, hrow, hunreadable⟩ := h
  rcases mapM_block_cases table .nodeIP (·.nodeIP) with hnodes | ⟨e, hnodes, he⟩
  · rcases mapM_block_cases table .podNet (·.podNet) with hpods | ⟨e, hpods, he⟩
    · exact absurd ⟨hnodes row hrow, hpods row hrow⟩ hunreadable
    · refine ⟨e, ?_, he⟩
      rw [next, mapM_block_eq_ok hnodes, hpods]
      rfl
  · refine ⟨e, ?_, he⟩
    rw [next, hnodes]
    rfl

theorem search_append (rest : List Router)
    (h : ∀ r ∈ front, r.HasPools ∧ ¬ r.IsOpen table) :
    search (blocks table.nodeIPs) (blocks table.podNets) (front ++ rest) =
      search (blocks table.nodeIPs) (blocks table.podNets) rest := by
  induction front with
  | nil => rfl
  | cons r others ih =>
    obtain ⟨⟨hpools, hshut⟩, hothers⟩ := List.forall_mem_cons.mp h
    obtain ⟨⟨nodePool, hnode⟩, ⟨podPool, hpod⟩⟩ := hpools
    have hpick : r.pick? table = none := by
      by_contra hne
      exact hshut (Router.isOpen_iff.mpr (Option.ne_none_iff_exists'.mp hne))
    rw [List.cons_append, search, block_eq_ok_iff.mpr hnode, block_eq_ok_iff.mpr hpod]
    simp only [bind, Except.bind, ofRouter?_eq_pick? table hnode hpod, hpick]
    exact ih hothers

theorem search_cons_of_isOpen (rest : List Router) (h : r.IsOpen table) :
    ∃ node pod, r.Gives table node pod ∧
      search (blocks table.nodeIPs) (blocks table.podNets) (r :: rest) =
        .ok ⟨"", r.publicKey, "", node.text, pod.text⟩ := by
  obtain ⟨⟨nodePool, hnode⟩, ⟨podPool, hpod⟩⟩ := h.hasPools
  obtain ⟨found, hpick⟩ := Router.isOpen_iff.mp h
  obtain ⟨node, pod, hgives, rfl⟩ := Router.gives_of_pick? hpick
  refine ⟨node, pod, hgives, ?_⟩
  rw [search, block_eq_ok_iff.mpr hnode, block_eq_ok_iff.mpr hpod]
  simp only [bind, Except.bind, ofRouter?_eq_pick? table hnode hpod, hpick]

theorem search_cons_of_not_hasPools (taken blocked : List Block) (rest : List Router)
    (h : ¬ r.HasPools) :
    ∃ e, search taken blocked (r :: rest) = .error e ∧ e.IsOfText := by
  cases hnode : block .nodePool r.nodePool with
  | error e =>
    refine ⟨e, ?_, isOfText_of_block hnode⟩
    rw [search, hnode]
    rfl
  | ok nodePool =>
    cases hpod : block .podPool r.podPool with
    | error e =>
      refine ⟨e, ?_, isOfText_of_block hpod⟩
      rw [search, hnode, hpod]
      rfl
    | ok podPool =>
      exact absurd ⟨⟨nodePool, block_eq_ok_iff.mp hnode⟩, ⟨podPool, block_eq_ok_iff.mp hpod⟩⟩ h

/-- The search for free addresses is sound, complete and first-fit. A row that is no block ends it.
Otherwise the first router decides that is open or has a pool that is no block: an open one gives its
lowest open address with the block at its lowest open step, the other one ends the search. Without any
such router the pools are exhausted. -/
theorem next_is_first_fit (routers : List Router) (table : Table) :
    ((∃ row ∈ table.rows, ¬ row.IsReadable) →
        ∃ e, next routers table = .error e ∧ e.IsOfText) ∧
      ((∀ row ∈ table.rows, row.IsReadable) →
        (∀ front r back, routers = front ++ r :: back →
          (∀ q ∈ front, q.HasPools ∧ ¬ q.IsOpen table) →
          (r.IsOpen table → ∃ node pod, r.Gives table node pod ∧
            next routers table = .ok ⟨"", r.publicKey, "", node.text, pod.text⟩) ∧
          (¬ r.HasPools → ∃ e, next routers table = .error e ∧ e.IsOfText)) ∧
        ((∀ r ∈ routers, r.HasPools ∧ ¬ r.IsOpen table) →
          next routers table = .error .exhausted)) := by
  refine ⟨exists_error_of_not_isReadable routers, fun hrows => ⟨?_, fun hshut => ?_⟩⟩
  · rintro front r back rfl hfront
    rw [next_eq_search hrows, search_append (r :: back) hfront]
    exact ⟨search_cons_of_isOpen back, search_cons_of_not_hasPools _ _ back⟩
  · rw [next_eq_search hrows]
    have hsearch := search_append [] hshut
    rwa [List.append_nil] at hsearch

/-- A foreign row fills the block pool of the first router, and others take what the second would give
first. The third is not asked, so its pools need not be blocks. -/
theorem next_is_first_fit_foreign :
    let full : Router := ⟨"A", "a:1", "10.1.0.0/30", "10.2.0.0/22", 24⟩
    let spare : Router := ⟨"B", "b:1", "10.1.1.3/29", "10.2.4.0/21", 24⟩
    let broken : Router := ⟨"C", "c:1", "none", "none", 24⟩
    let table : Table :=
      ⟨[⟨"K", "X", "k", "10.1.1.4", "10.2.0.0/22"⟩, ⟨"L", "X", "l", "10.1.1.8/30", "10.2.5.128/25"⟩]⟩
    (∀ row ∈ table.rows, row.IsReadable) ∧ full.HasPools ∧ ¬ full.IsOpen table ∧
      spare.IsOpen table ∧ ¬ broken.HasPools ∧
      ∃ node pod, spare.Gives table node pod ∧
        next [full, spare, broken] table = .ok ⟨"", "B", "", node.text, pod.text⟩ ∧
        node.text = "10.1.1.5" ∧ pod.text = "10.2.6.0/24" := by
  intro full spare broken table
  have hrows : ∀ row ∈ table.rows, row.IsReadable := by
    simp only [table, List.forall_mem_cons]
    exact ⟨⟨⟨_, rfl⟩, ⟨_, rfl⟩⟩, ⟨⟨_, rfl⟩, ⟨_, rfl⟩⟩, nofun⟩
  have hfull : full.HasPools := by
    simp only [full]
    exact ⟨⟨_, rfl⟩, ⟨_, rfl⟩⟩
  have hshut : ¬ full.IsOpen table := Router.not_isOpen_of_pick? (by decide +kernel)
  have hpick : spare.pick? table = some ⟨"", "B", "", "10.1.1.5", "10.2.6.0/24"⟩ := by
    decide +kernel
  have hopen : spare.IsOpen table := Router.isOpen_iff.mpr ⟨_, hpick⟩
  have hbroken : ¬ broken.HasPools := by
    rintro ⟨⟨pool, hpool⟩, -⟩
    have hnone : Block.ofText "none" = .error (.badAddress "none") := by decide +kernel
    rw [hnone] at hpool
    cases hpool
  obtain ⟨node, pod, hgives, hnext⟩ := ((next_is_first_fit [full, spare, broken] table).2 hrows).1
    [full] spare [broken] rfl (List.forall_mem_singleton.mpr ⟨hfull, hshut⟩) |>.1 hopen
  have hfound : next [full, spare, broken] table = .ok ⟨"", "B", "", "10.1.1.5", "10.2.6.0/24"⟩ := by
    decide +kernel
  rw [hfound, Except.ok.injEq] at hnext
  injection hnext with _ _ _ hnode hpod
  exact ⟨hrows, hfull, hshut, hopen, hbroken, node, pod, hgives, by rw [hfound, hnode, hpod],
    hnode.symm, hpod.symm⟩

end Allocation

end TunnelFleet
