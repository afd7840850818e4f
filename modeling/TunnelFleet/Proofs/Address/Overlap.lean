import TunnelFleet.Address.Block

namespace TunnelFleet.Block

theorem contains_iff {b : Block} {a : Address} :
    b.contains a = true ↔ a.val / b.size = b.address.val / b.size := by
  rw [contains, beq_iff_eq]

theorem contains_address (b : Block) : b.contains b.address = true :=
  contains_iff.mpr rfl

theorem contains_network (b : Block) : b.contains b.network = true := by
  rw [contains_iff, network, Nat.mul_div_cancel _ b.size_pos]

theorem size_dvd_size {a b : Block} (h : b.len ≤ a.len) : a.size ∣ b.size :=
  span_dvd_span a.len_le h

theorem contains_network_of_shared {a b : Block} {x : Address} (hlen : b.len ≤ a.len)
    (ha : a.contains x = true) (hb : b.contains x = true) : b.contains a.network = true := by
  rw [contains_iff] at ha hb ⊢
  obtain ⟨k, hk⟩ := size_dvd_size hlen
  calc a.network.val / b.size = x.val / a.size * a.size / b.size := by rw [network, ha]
    _ = x.val / a.size / k := by
      rw [hk, Nat.mul_comm (x.val / a.size), Nat.mul_div_mul_left _ _ a.size_pos]
    _ = x.val / b.size := by rw [Nat.div_div_eq_div_mul, ← hk]
    _ = b.address.val / b.size := hb

/-- Two blocks overlap exactly when some address lies in both. -/
theorem overlaps_iff {a b : Block} :
    a.overlaps b = true ↔ ∃ x, a.contains x = true ∧ b.contains x = true := by
  rw [overlaps, Bool.or_eq_true]
  constructor
  · rintro (h | h)
    · exact ⟨b.network, h, b.contains_network⟩
    · exact ⟨a.network, a.contains_network, h⟩
  · rintro ⟨x, ha, hb⟩
    rcases Nat.le_total a.len b.len with hlen | hlen
    · exact .inl (contains_network_of_shared hlen hb ha)
    · exact .inr (contains_network_of_shared hlen ha hb)

def IsApart (b c : Block) : Prop :=
  ∀ a, ¬ (b.contains a = true ∧ c.contains a = true)

theorem overlaps_eq_false_iff {b c : Block} : b.overlaps c = false ↔ b.IsApart c := by
  rw [← Bool.not_eq_true, overlaps_iff, not_exists]
  rfl

theorem contains_of_contains_address {b c : Block} {a : Address} (hlen : c.len ≤ b.len)
    (h : c.contains b.address = true) (ha : b.contains a = true) : c.contains a = true := by
  rw [contains_iff] at h ha ⊢
  obtain ⟨k, hk⟩ := size_dvd_size hlen
  rw [← h, hk, ← Nat.div_div_eq_div_mul, ← Nat.div_div_eq_div_mul, ha]

end TunnelFleet.Block
