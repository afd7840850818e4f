import Mathlib.Algebra.GroupWithZero.Nat
import TunnelFleet.Proofs.Address.Walk

namespace TunnelFleet

theorem span_eq_two_pow : ∀ {len : Nat}, len ≤ 32 → span len = 2 ^ (32 - len) := by
  decide +kernel

theorem Address.val_injective : Address.val.Injective := by
  rintro ⟨n, hn⟩ ⟨m, hm⟩ h
  cases h
  rfl

namespace Block

def place (b : Block) : Nat × Nat :=
  (b.address.val, b.len)

theorem place_eq_iff {b : Block} {n len : Nat} :
    b.place = (n, len) ↔ b.address.val = n ∧ b.len = len := by
  rw [place, Prod.mk.injEq]

theorem place_injective : place.Injective := by
  rintro ⟨a, len, hlen⟩ ⟨b, other, hother⟩ h
  obtain ⟨hval, hmask⟩ := place_eq_iff.mp h
  obtain rfl := Address.val_injective hval
  cases hmask
  rfl

theorem size_eq_two_pow (b : Block) : b.size = 2 ^ (32 - b.len) :=
  span_eq_two_pow b.len_le

theorem network_le_address (b : Block) : b.network.val ≤ b.address.val :=
  Nat.div_mul_le_self _ _

theorem contains_iff_le {b : Block} {a : Address} :
    b.contains a = true ↔ b.network.val ≤ a.val ∧ a.val ≤ b.broadcast.val := by
  have hpos := b.size_pos
  have hlast : b.broadcast.val = b.network.val + (b.size - 1) := rfl
  have hnetwork : b.network.val = b.address.val / b.size * b.size := rfl
  rw [contains_iff, Nat.div_eq_iff hpos, hlast, hnetwork]
  constructor
  · rintro ⟨hlow, hhigh⟩
    exact ⟨hlow, by omega⟩
  · rintro ⟨hlow, hhigh⟩
    exact ⟨hlow, by omega⟩

/-- How many steps of `2 ^ (32 - len)` addresses lead from a pool's written address to blocks that end
before the one with the pool's last address. A pool has none for blocks that are wider than itself. -/
def stepCount (pool : Block) (len : Nat) : Nat :=
  if len < pool.len then 0
  else pool.broadcast.val / 2 ^ (32 - len) - pool.address.val / 2 ^ (32 - len) - 1

theorem lt_stepCount_iff {pool : Block} {len n : Nat} :
    n < pool.stepCount len ↔ pool.len ≤ len ∧
      (pool.address.val + (n + 1) * 2 ^ (32 - len)) / 2 ^ (32 - len) <
        pool.broadcast.val / 2 ^ (32 - len) := by
  rw [Nat.add_mul_div_right _ _ (Nat.two_pow_pos _), stepCount]
  split <;> omega

end Block

namespace Walk

variable {w : Walk} {pool b : Block} {len n : Nat}

/-- At or behind a pool's written address, the blocks out of bounds are those that reach the block
with the pool's last address. -/
theorem inBounds_iff (h : pool.address.val ≤ b.address.val) :
    inBounds pool b = true ↔
      pool.len ≤ b.len ∧ b.address.val / b.size < pool.broadcast.val / b.size := by
  have hlow := pool.network_le_address
  simp only [inBounds, Bool.and_eq_true, decide_eq_true_eq, Bool.not_eq_true',
    Bool.eq_false_iff, ne_eq, Block.contains_iff_le (b := pool), Block.contains_iff (b := b)]
  constructor
  · rintro ⟨⟨hlen, -, hhigh⟩, hlast⟩
    have hle : b.address.val / b.size ≤ pool.broadcast.val / b.size := Nat.div_le_div_right hhigh
    exact ⟨hlen, by omega⟩
  · rintro ⟨hlen, hlt⟩
    have hhigh := Nat.lt_of_div_lt_div hlt
    exact ⟨⟨hlen, by omega, by omega⟩, by omega⟩

theorem place_candidate? {position : Nat} (h : w.pool.address.val ≤ position) :
    (w.candidate? position).map Block.place =
      if w.pool.len ≤ w.len ∧
          (position + span w.len) / span w.len < w.pool.broadcast.val / span w.len
      then some (position + span w.len, w.len) else none := by
  unfold candidate?
  split
  next htop =>
    have hbounds : inBounds w.pool ⟨⟨position + span w.len, Nat.lt_succ_of_le htop⟩, w.len, w.len_le⟩ =
        true ↔ _ := inBounds_iff (Nat.le_trans h (Nat.le_add_right _ _))
    simp only [hbounds, Block.size]
    split <;> rfl
  next htop =>
    rw [if_neg]
    · rfl
    · rintro ⟨-, hlt⟩
      have hlast := Nat.lt_of_div_lt_div hlt
      have htopmost := w.pool.broadcast.lt
      rw [topAddress] at htop
      omega

theorem next_eq (w : Walk) :
    w.next = (w.cursor.bind w.candidate?,
      { w with cursor := (w.cursor.bind w.candidate?).map fun b => b.address.val }) := by
  unfold next
  split
  next found hfound => rw [hfound]; rfl
  next hnone => rw [hnone]; rfl

def afterCalls (w : Walk) : Nat → Walk
  | 0 => w
  | n + 1 => (w.afterCalls n).next.2

def call (w : Walk) (n : Nat) : Option Block :=
  (w.afterCalls n).next.1

theorem head?_blocks (w : Walk) : w.blocks.head? = w.next.1 := by
  rcases hnext : w.next with ⟨_ | b, after⟩
  · rw [blocks_of_next_none hnext, List.head?_nil]
  · rw [blocks_of_next_some hnext, List.head?_cons]

theorem tail_blocks (w : Walk) : w.blocks.tail = w.next.2.blocks := by
  rcases hnext : w.next with ⟨_ | b, after⟩
  · have hended : after.next = (none, after) := by
      rw [next_eq, Prod.mk.injEq] at hnext
      obtain ⟨hnone, rfl⟩ := hnext
      rw [next_eq, hnone]
      rfl
    rw [blocks_of_next_none hnext, blocks_of_next_none hended, List.tail_nil]
  · rw [blocks_of_next_some hnext, List.tail_cons]

theorem blocks_afterCalls (w : Walk) (n : Nat) : (w.afterCalls n).blocks = w.blocks.drop n := by
  induction n with
  | zero => rfl
  | succ n ih => rw [afterCalls, ← tail_blocks, ih, List.tail_drop]

theorem getElem?_blocks (w : Walk) (n : Nat) : w.blocks[n]? = w.call n := by
  rw [call, ← head?_blocks, blocks_afterCalls, List.head?_drop]

def atStep (pool : Block) (len n : Nat) : Walk :=
  { start pool len with
    cursor :=
      if n ≤ pool.stepCount (min len 32) then
        some (pool.address.val + n * 2 ^ (32 - min len 32))
      else none }

theorem place_next_atStep (pool : Block) (len n : Nat) :
    (atStep pool len n).next.1.map Block.place =
      if n < pool.stepCount (min len 32) then
        some (pool.address.val + (n + 1) * 2 ^ (32 - min len 32), min len 32)
      else none := by
  have hspan : span (min len 32) = 2 ^ (32 - min len 32) := span_eq_two_pow (Nat.min_le_right _ _)
  rw [next_eq]
  by_cases hn : n ≤ pool.stepCount (min len 32)
  · have hcursor : (atStep pool len n).cursor =
        some (pool.address.val + n * 2 ^ (32 - min len 32)) := if_pos hn
    have hsucc : pool.address.val + n * 2 ^ (32 - min len 32) + 2 ^ (32 - min len 32) =
        pool.address.val + (n + 1) * 2 ^ (32 - min len 32) := by
      rw [Nat.add_mul, Nat.one_mul, Nat.add_assoc]
    have hplace := place_candidate? (w := atStep pool len n)
      (Nat.le_add_right pool.address.val (n * 2 ^ (32 - min len 32)))
    simp only [atStep, start, hspan, hsucc, ← Block.lt_stepCount_iff] at hplace
    rw [hcursor, Option.bind_some]
    exact hplace
  · have hcursor : (atStep pool len n).cursor = none := if_neg hn
    have hend : ¬ n < pool.stepCount (min len 32) := by omega
    rw [hcursor, if_neg hend]
    rfl

theorem next_atStep (pool : Block) (len n : Nat) :
    (atStep pool len n).next.2 = atStep pool len (n + 1) := by
  have hafter : (atStep pool len n).next.2 = { atStep pool len n with
      cursor := (atStep pool len n).next.1.map fun b => b.address.val } := by
    rw [next_eq]
  have hcursor : ((atStep pool len n).next.1.map fun b => b.address.val) =
      (atStep pool len (n + 1)).cursor := by
    have hplace := congrArg (Option.map Prod.fst) (place_next_atStep pool len n)
    rw [Option.map_map] at hplace
    refine hplace.trans ?_
    by_cases hn : n < pool.stepCount (min len 32)
    · have hsucc : n + 1 ≤ pool.stepCount (min len 32) := hn
      rw [atStep, if_pos hn, if_pos hsucc, Option.map_some]
    · have hsucc : ¬ n + 1 ≤ pool.stepCount (min len 32) := hn
      rw [atStep, if_neg hn, if_neg hsucc, Option.map_none]
  rw [hafter, hcursor]
  rfl

theorem afterCalls_start (pool : Block) (len n : Nat) :
    (start pool len).afterCalls n = atStep pool len n := by
  induction n with
  | zero => rw [afterCalls, atStep, if_pos (Nat.zero_le _), Nat.zero_mul, Nat.add_zero, start]
  | succ n ih => rw [afterCalls, ih, next_atStep]

theorem place_call_start (pool : Block) (len n : Nat) :
    ((start pool len).call n).map Block.place =
      if n < pool.stepCount (min len 32) then
        some (pool.address.val + (n + 1) * 2 ^ (32 - min len 32), min len 32)
      else none := by
  rw [call, afterCalls_start, place_next_atStep]

theorem call_start_eq_some_iff :
    (start pool len).call n = some b ↔ n < pool.stepCount (min len 32) ∧
      b.address.val = pool.address.val + (n + 1) * 2 ^ (32 - min len 32) ∧
      b.len = min len 32 := by
  rw [← (Option.map_injective Block.place_injective).eq_iff, Option.map_some, place_call_start,
    Option.ite_none_right_eq_some, Option.some.injEq, eq_comm, Block.place_eq_iff]

theorem lt_of_cursor_afterCalls_start {position : Nat}
    (h : ((start pool len).afterCalls n).cursor = some position) : position < 2 ^ 32 := by
  rw [afterCalls_start, atStep, Option.ite_none_right_eq_some] at h
  obtain ⟨hn, hposition⟩ := h
  obtain rfl := Option.some.inj hposition
  cases n with
  | zero =>
    rw [Nat.zero_mul, Nat.add_zero]
    exact pool.address.lt
  | succ n =>
    have hlt : n < pool.stepCount (min len 32) := hn
    have hplace := place_call_start pool len n
    rw [if_pos hlt, Option.map_eq_some_iff] at hplace
    obtain ⟨b, -, hb⟩ := hplace
    rw [← (Block.place_eq_iff.mp hb).1]
    exact b.address.lt

theorem mem_blocks_of_call (h : w.call n = some b) : b ∈ w.blocks :=
  List.mem_of_getElem? ((getElem?_blocks w n).trans h)

theorem isApart_of_call {m : Nat} {c : Block} (hmn : m < n) (hb : w.call m = some b)
    (hc : w.call n = some c) : b.IsApart c := by
  rw [← getElem?_blocks, List.getElem?_eq_some_iff] at hb hc
  obtain ⟨hm, rfl⟩ := hb
  obtain ⟨hn, rfl⟩ := hc
  exact List.pairwise_iff_getElem.mp w.pairwise_blocks m n hm hn hmn

theorem not_contains_broadcast_of_mem_blocks (h : b ∈ w.blocks) :
    b.contains w.pool.broadcast = false := by
  have hbounds := (isAhead_of_mem h).inBounds
  simp only [inBounds, Bool.and_eq_true, Bool.not_eq_true'] at hbounds
  exact hbounds.2

/-- A walk gives the blocks that lie one step, two steps and so on from the written address of its
pool, and all later calls give nothing. The blocks lie in the pool, leave its last address alone and have
no address in common, and every sum on the way fits a word of 64 bits. -/
theorem calls_are_exact (pool : Block) (len : Nat) :
    let w := start pool len
    let p := min len 32
    let s := 2 ^ (32 - p)
    let count :=
      if p < pool.len then 0 else pool.broadcast.val / s - pool.address.val / s - 1
    (∀ n, (w.call n).map Block.place =
        if n < count then some (pool.address.val + (n + 1) * s, p) else none) ∧
      (∀ n b, w.call n = some b →
        (∀ a, b.contains a = true → pool.contains a = true) ∧ b.contains pool.broadcast = false) ∧
      (∀ m n b c, m < n → w.call m = some b → w.call n = some c → b.IsApart c) ∧
      ∀ n position, (w.afterCalls n).cursor = some position → position + s < 2 ^ 64 := by
  intro w p s count
  refine ⟨place_call_start pool len, ?_, fun _ _ _ _ => isApart_of_call, ?_⟩
  · intro n b hb
    have hmem := mem_blocks_of_call hb
    exact ⟨fun a => contains_of_mem_blocks hmem, not_contains_broadcast_of_mem_blocks hmem⟩
  · intro n position hposition
    have hlow := lt_of_cursor_afterCalls_start hposition
    have hstep : s ≤ 2 ^ 32 := Nat.pow_le_pow_right (by decide) (Nat.sub_le _ _)
    omega

-- the widest step, taken at the highest address
example : (start ⟨⟨4294967295, by decide⟩, 0, by decide⟩ 0).call 0 = none := by decide

end Walk

end TunnelFleet
