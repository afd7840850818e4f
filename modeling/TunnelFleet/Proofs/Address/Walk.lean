import TunnelFleet.Address.Walk
import TunnelFleet.Proofs.Address.Overlap

namespace TunnelFleet.Walk

def blocks (w : Walk) : List Block :=
  match _h : w.next with
  | (none, _) => []
  | (some block, after) => block :: after.blocks
termination_by w.room
decreasing_by exact room_next_lt _h

variable {w after : Walk} {b : Block}

theorem blocks_of_next_none (h : w.next = (none, after)) : w.blocks = [] := by
  rw [blocks]
  split
  next => rfl
  next heq => rw [h] at heq; cases heq

theorem blocks_of_next_some (h : w.next = (some b, after)) : w.blocks = b :: after.blocks := by
  rw [blocks]
  split
  next heq => rw [h] at heq; cases heq
  next heq =>
    rw [h] at heq
    cases heq
    rfl

theorem find?_of_next_none {wanted : Block → Bool} (h : w.next = (none, after)) :
    w.find? wanted = none := by
  rw [find?]
  split
  next => rfl
  next heq => rw [h] at heq; cases heq

theorem find?_of_next_some {wanted : Block → Bool} (h : w.next = (some b, after)) :
    w.find? wanted = if wanted b then some b else after.find? wanted := by
  rw [find?]
  split
  next heq => rw [h] at heq; cases heq
  next heq =>
    rw [h] at heq
    cases heq
    rfl

theorem find?_eq (wanted : Block → Bool) (w : Walk) : w.find? wanted = w.blocks.find? wanted := by
  induction w using find?.induct wanted with
  | case1 w after hnext =>
    rw [find?_of_next_none hnext, blocks_of_next_none hnext, List.find?_nil]
  | case2 w block after hnext hw =>
    rw [find?_of_next_some hnext, blocks_of_next_some hnext, List.find?_cons_of_pos hw, if_pos hw]
  | case3 w block after hnext hw ih =>
    rw [find?_of_next_some hnext, blocks_of_next_some hnext, List.find?_cons_of_neg hw, if_neg hw,
      ih]

structure IsAhead (w : Walk) (b : Block) : Prop where
  len : b.len = w.len
  inBounds : Walk.inBounds w.pool b = true
  address : ∃ position, w.cursor = some position ∧
    ∃ k, b.address.val = position + (k + 1) * span w.len

theorem isAhead_of_next (h : w.next = (some b, after)) : w.IsAhead b := by
  unfold next at h
  split at h
  next found hfound =>
    obtain ⟨position, hposition, hcandidate⟩ := Option.bind_eq_some_iff.mp hfound
    obtain rfl : found = b := by cases h; rfl
    obtain ⟨haddress, hlen⟩ := candidate?_address hcandidate
    refine ⟨hlen, ?_, position, hposition, 0, by rw [haddress, Nat.zero_add, Nat.one_mul]⟩
    unfold candidate? at hcandidate
    split at hcandidate
    next =>
      simp only [Option.ite_none_right_eq_some, Option.some.injEq] at hcandidate
      obtain ⟨hbounds, rfl⟩ := hcandidate
      exact hbounds
    next => cases hcandidate
  next => cases h

theorem after_of_next (h : w.next = (some b, after)) :
    after = { w with cursor := some b.address.val } := by
  unfold next at h
  split at h
  next => cases h; rfl
  next => cases h

theorem IsAhead.of_after {c : Block} (hnext : w.next = (some b, after)) (h : after.IsAhead c) :
    w.IsAhead c := by
  obtain ⟨position, hposition, k, hk⟩ := (isAhead_of_next hnext).address
  obtain rfl := after_of_next hnext
  obtain ⟨-, ⟨⟩, m, hm⟩ := h.address
  refine ⟨h.len, h.inBounds, position, hposition, k + 1 + m, ?_⟩
  rw [hm, hk, Nat.add_assoc, ← Nat.add_mul]
  rfl

theorem isAhead_of_mem {b : Block} (h : b ∈ w.blocks) : w.IsAhead b := by
  induction w using blocks.induct with
  | case1 w after hnext =>
    rw [blocks_of_next_none hnext] at h
    cases h
  | case2 w block after hnext ih =>
    rw [blocks_of_next_some hnext, List.mem_cons] at h
    rcases h with rfl | h
    · exact isAhead_of_next hnext
    · exact (ih h).of_after hnext

theorem pairwise_blocks (w : Walk) : w.blocks.Pairwise Block.IsApart := by
  induction w using blocks.induct with
  | case1 w after hnext =>
    rw [blocks_of_next_none hnext]
    exact .nil
  | case2 w block after hnext ih =>
    rw [blocks_of_next_some hnext]
    refine List.pairwise_cons.mpr ⟨fun c hc a ⟨hblock, hother⟩ => ?_, ih⟩
    have hlen := (isAhead_of_next hnext).len
    obtain rfl := after_of_next hnext
    have hahead := isAhead_of_mem hc
    obtain ⟨-, ⟨⟩, k, hk⟩ := hahead.address
    have hsize : c.size = block.size := congrArg span (hahead.len.trans hlen.symm)
    have hsteps : c.address.val = block.address.val + (k + 1) * block.size := by
      rw [hk, Block.size, hlen]
    rw [Block.contains_iff] at hblock hother
    rw [hsize, hsteps, Nat.add_mul_div_right _ _ block.size_pos, hblock] at hother
    omega

theorem wanted_of_find? {wanted : Block → Bool} (h : w.find? wanted = some b) :
    wanted b = true ∧ b.len = w.len := by
  rw [find?_eq] at h
  exact ⟨List.find?_some h, (isAhead_of_mem (List.mem_of_find?_eq_some h)).len⟩

theorem contains_of_mem_blocks {a : Address} (h : b ∈ w.blocks) (ha : b.contains a = true) :
    w.pool.contains a = true := by
  have hbounds := (isAhead_of_mem h).inBounds
  simp only [inBounds, Bool.and_eq_true, decide_eq_true_eq] at hbounds
  exact Block.contains_of_contains_address hbounds.1.1 hbounds.1.2 ha

end TunnelFleet.Walk
