import TunnelFleet.Proofs.Allocation.FirstFit

namespace TunnelFleet

namespace Block

/-- A text is a block in canonical form: the address before the slash is the lowest of the block. -/
def IsCanonical (s : String) : Prop :=
  ∃ b : Block, s = b.text ∧ b.network = b.address

variable {b c : Block}

theorem text_injective : text.Injective := by
  intro b c h
  have hread := ofText_text b
  rw [h, ofText_text, Except.ok.injEq] at hread
  exact hread.symm

theorem network_eq_address_iff : b.network = b.address ↔ 2 ^ (32 - b.len) ∣ b.address.val := by
  have hnetwork : b.network.val = b.address.val / b.size * b.size := rfl
  rw [← b.size_eq_two_pow]
  constructor
  · intro h
    rw [← h, hnetwork]
    exact Nat.dvd_mul_left _ _
  · intro h
    have hval : b.network.val = b.address.val := by rw [hnetwork, Nat.div_mul_cancel h]
    exact Address.val_injective hval

theorem isCanonical_text_iff : IsCanonical b.text ↔ 2 ^ (32 - b.len) ∣ b.address.val := by
  rw [← network_eq_address_iff]
  constructor
  · rintro ⟨c, htext, hc⟩
    obtain rfl := text_injective htext
    exact hc
  · intro h
    exact ⟨b, rfl, h⟩

end Block

open Allocation

/-- The bits of a pool's written address under the mask of its blocks stand in all that it gives. -/
theorem Router.Gives.exists_pool {r : Router} {table : Table} {node : Address} {pod : Block}
    (h : r.Gives table node pod) :
    ∃ pool, Block.ofText r.podPool = .ok pool ∧ pool.len ≤ pod.len ∧ pod.len = min r.podLen 32 ∧
      pod.address.val % 2 ^ (32 - pod.len) = pool.address.val % 2 ^ (32 - pod.len) := by
  obtain ⟨pool, k, hpool, ⟨hopen, -⟩, haddress, hlen⟩ := h.pod
  refine ⟨pool, hpool, ?_, hlen, ?_⟩
  · rw [hlen]
    exact len_le_of_alignedBlock_subset hopen.inside
  · rw [haddress, hlen, Nat.add_mul_mod_self_right]

namespace Allocation

/-- The block for pods that a search finds is in canonical form if and only if the block pool of its
router is written at a multiple of the block size, as it is when the pool itself is in canonical form. Any
other pool puts its host bits into the block. -/
theorem podNet_isCanonical_iff {routers : List Router} {table : Table} {found : Allocation}
    (h : next routers table = .ok found) :
    ∃ (front : List Router) (owner : Router) (pool pod : Block),
      IsTakenFrom routers table found front owner ∧
      Block.ofText owner.podPool = .ok pool ∧ found.podNet = pod.text ∧
      pod.len = min owner.podLen 32 ∧
      pod.address.val % 2 ^ (32 - pod.len) = pool.address.val % 2 ^ (32 - pod.len) ∧
      (Block.IsCanonical found.podNet ↔ 2 ^ (32 - pod.len) ∣ pool.address.val) ∧
      (pool.network = pool.address → Block.IsCanonical found.podNet) := by
  obtain ⟨front, owner, htaken⟩ := exists_owner_of_next h
  obtain ⟨node, pod, hgives, rfl⟩ := Router.gives_of_pick? htaken.picked
  obtain ⟨pool, hpool, hwidth, hlen, hbits⟩ := hgives.exists_pool
  have hcanonical : Block.IsCanonical pod.text ↔ 2 ^ (32 - pod.len) ∣ pool.address.val := by
    rw [Block.isCanonical_text_iff, Nat.dvd_iff_mod_eq_zero, hbits, ← Nat.dvd_iff_mod_eq_zero]
  refine ⟨front, owner, pool, pod, htaken, hpool, rfl, hlen, hbits, hcanonical, fun hpure => ?_⟩
  have hsize : 2 ^ (32 - pod.len) ∣ 2 ^ (32 - pool.len) := Nat.pow_dvd_pow 2 (by omega)
  exact hcanonical.mpr (Nat.dvd_trans hsize (Block.network_eq_address_iff.mp hpure))

/-- Host bits above the size of the blocks do no harm. -/
theorem podNet_isCanonical_of_wide_hostBits :
    let routers : List Router := [⟨"R", "r:1", "10.1.0.0/24", "10.2.128.0/16", 20⟩]
    next routers ⟨[]⟩ = .ok ⟨"", "R", "", "10.1.0.1", "10.2.144.0/20"⟩ ∧
      Block.IsCanonical "10.2.144.0/20" := by
  intro routers
  have hnext : next routers ⟨[]⟩ = .ok ⟨"", "R", "", "10.1.0.1", "10.2.144.0/20"⟩ := by
    decide +kernel
  obtain ⟨front, owner, pool, pod, htaken, hpool, -, hlen, -, hcanonical, -⟩ :=
    podNet_isCanonical_iff hnext
  obtain ⟨back, hsplit⟩ := htaken.split
  have howner : owner ∈ routers := hsplit ▸ List.mem_append_right front List.mem_cons_self
  obtain rfl := List.mem_singleton.mp howner
  have hread : Block.ofText "10.2.128.0/16" = .ok ⟨⟨167936000, by decide⟩, 16, by decide⟩ := by
    decide +kernel
  obtain rfl := Except.ok.inj (hread.symm.trans hpool)
  refine ⟨hnext, hcanonical.mpr ?_⟩
  rw [hlen]
  decide

/-- A pool written with host bits below the size of its blocks gives blocks with host bits. -/
theorem not_podNet_isCanonical :
    ¬ ∀ (routers : List Router) (table : Table) (found : Allocation),
      next routers table = .ok found → Block.IsCanonical found.podNet := by
  intro h
  have hnext : next [⟨"R", "r:1", "10.1.0.0/24", "10.2.0.77/16", 24⟩] ⟨[]⟩ =
      .ok ⟨"", "R", "", "10.1.0.1", "10.2.1.77/24"⟩ := by
    decide +kernel
  have hcanonical := h _ _ _ hnext
  let pod : Block := ⟨⟨167903565, by decide⟩, 24, by decide⟩
  have htext : "10.2.1.77/24" = pod.text := by decide +kernel
  rw [htext, Block.isCanonical_text_iff] at hcanonical
  exact absurd hcanonical (by decide)

end Allocation

end TunnelFleet
