import Mathlib.Order.Interval.Set.Basic
import TunnelFleet.Proofs.Address.Steps

namespace TunnelFleet.Block

variable {b c : Block} {n x len : Nat}

/-- The addresses of a block as numbers: those of 32 bits that begin with the same `len` bits as the
written address. -/
def addresses (b : Block) : Set Nat :=
  {x | x < 2 ^ 32 ∧ ∀ i < b.len, x.testBit (31 - i) = b.address.val.testBit (31 - i)}

theorem leading_bits_eq_iff (hlen : len ≤ 32) (hx : x < 2 ^ 32) (hn : n < 2 ^ 32) :
    (∀ i < len, x.testBit (31 - i) = n.testBit (31 - i)) ↔
      x / 2 ^ (32 - len) = n / 2 ^ (32 - len) := by
  constructor
  · intro h
    apply Nat.eq_of_testBit_eq
    intro i
    rw [Nat.testBit_div_two_pow, Nat.testBit_div_two_pow]
    by_cases hi : i + (32 - len) < 32
    · have hplace : 31 - (31 - (i + (32 - len))) = i + (32 - len) := by omega
      have hbit := h (31 - (i + (32 - len))) (by omega)
      rwa [hplace] at hbit
    · have hwide : 2 ^ 32 ≤ 2 ^ (i + (32 - len)) := Nat.pow_le_pow_right (by decide) (by omega)
      rw [Nat.testBit_lt_two_pow (Nat.lt_of_lt_of_le hx hwide),
        Nat.testBit_lt_two_pow (Nat.lt_of_lt_of_le hn hwide)]
  · intro h i hi
    have hplace : len - 1 - i + (32 - len) = 31 - i := by omega
    have hbit := congrArg (fun m => m.testBit (len - 1 - i)) h
    rwa [Nat.testBit_div_two_pow, Nat.testBit_div_two_pow, hplace] at hbit

theorem mem_addresses_iff {a : Address} : a.val ∈ b.addresses ↔ b.contains a = true := by
  have hbits := leading_bits_eq_iff b.len_le a.lt b.address.lt
  rw [contains_iff, b.size_eq_two_pow, ← hbits]
  exact ⟨fun h => h.2, fun h => ⟨a.lt, h⟩⟩

theorem addresses_eq_Icc (b : Block) :
    b.addresses = Set.Icc b.network.val b.broadcast.val := by
  ext x
  constructor
  · intro hx
    let a : Address := ⟨x, hx.1⟩
    exact contains_iff_le.mp (mem_addresses_iff.mp (show a.val ∈ b.addresses from hx))
  · intro hx
    let a : Address := ⟨x, Nat.lt_of_le_of_lt hx.2 b.broadcast.lt⟩
    exact mem_addresses_iff.mpr (contains_iff_le.mpr (show _ ≤ a.val ∧ a.val ≤ _ from hx))

theorem overlaps_iff_exists_mem :
    b.overlaps c = true ↔ ∃ x, x ∈ b.addresses ∧ x ∈ c.addresses := by
  rw [overlaps_iff]
  constructor
  · rintro ⟨a, hb, hc⟩
    exact ⟨a.val, mem_addresses_iff.mpr hb, mem_addresses_iff.mpr hc⟩
  · rintro ⟨x, hb, hc⟩
    let a : Address := ⟨x, hb.1⟩
    exact ⟨a, mem_addresses_iff.mp (show a.val ∈ b.addresses from hb),
      mem_addresses_iff.mp (show a.val ∈ c.addresses from hc)⟩

theorem overlaps_comm (b c : Block) : b.overlaps c = c.overlaps b := by
  rw [overlaps, overlaps, Bool.or_comm]

theorem broadcast_lt_network_of_overlaps_false (h : b.overlaps c = false) :
    b.broadcast.val < c.network.val ∨ c.broadcast.val < b.network.val := by
  have hb : b.network.val ≤ b.broadcast.val := Nat.le_add_right _ _
  have hc : c.network.val ≤ c.broadcast.val := Nat.le_add_right _ _
  have hapart := overlaps_eq_false_iff.mp h
  -- two intervals that meet hold the greater of their lowest addresses
  have hnetworkB := hapart b.network
  have hnetworkC := hapart c.network
  rw [contains_iff_le, contains_iff_le] at hnetworkB hnetworkC
  omega

/-- Two blocks overlap exactly when some address begins with the bits of both, whatever their mask
lengths and host bits. Blocks that do not overlap are two intervals, one in front of the other. -/
theorem overlap_decides_intersection (b c : Block) :
    (b.overlaps c = true ↔ ∃ x, x ∈ b.addresses ∧ x ∈ c.addresses) ∧
      b.overlaps c = c.overlaps b ∧
      (b.overlaps c = false →
        b.addresses = Set.Icc b.network.val b.broadcast.val ∧
        c.addresses = Set.Icc c.network.val c.broadcast.val ∧
        (b.broadcast.val < c.network.val ∨ c.broadcast.val < b.network.val)) := by
  refine ⟨overlaps_iff_exists_mem, overlaps_comm b c, fun h => ?_⟩
  have hfront := broadcast_lt_network_of_overlaps_false h
  exact ⟨addresses_eq_Icc b, addresses_eq_Icc c, hfront⟩

end TunnelFleet.Block
