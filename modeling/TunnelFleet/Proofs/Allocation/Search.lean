import TunnelFleet.Allocation.Search
import TunnelFleet.Proofs.Address.Text
import TunnelFleet.Proofs.Address.Walk

namespace TunnelFleet

namespace Allocation

def Holds (s : String) (a : Address) : Prop :=
  ∃ b, Block.ofText s = .ok b ∧ b.contains a = true

def IsReadable (row : Allocation) : Prop :=
  (∃ b, Block.ofText row.nodeIP = .ok b) ∧ ∃ b, Block.ofText row.podNet = .ok b

def IsApart (r s : Allocation) : Prop :=
  (∀ a, ¬ (Holds r.nodeIP a ∧ Holds s.nodeIP a)) ∧ ∀ a, ¬ (Holds r.podNet a ∧ Holds s.podNet a)

theorem IsApart.symm {r s : Allocation} (h : r.IsApart s) : s.IsApart r :=
  ⟨fun a ha => h.1 a ha.symm, fun a ha => h.2 a ha.symm⟩

instance : Std.Symm IsApart :=
  ⟨fun _ _ => IsApart.symm⟩

theorem block_eq_ok_iff {role : BlockRole} {s : String} {b : Block} :
    block role s = .ok b ↔ Block.ofText s = .ok b := by
  unfold block
  split
  next found heq => simp [heq]
  next cause heq => simp [heq]

theorem not_holds_of_overlaps {s t : String} {b c : Block} (hs : Block.ofText s = .ok b)
    (ht : Block.ofText t = .ok c) (h : b.overlaps c = false) (a : Address) :
    ¬ (Holds s a ∧ Holds t a) := by
  rintro ⟨⟨b', hb', hab⟩, c', hc', hac⟩
  rw [hs, Except.ok.injEq] at hb'
  rw [ht, Except.ok.injEq] at hc'
  subst hb' hc'
  exact Block.overlaps_eq_false_iff.mp h a ⟨hab, hac⟩

theorem not_holds_of_isFree {role : BlockRole} {column : Allocation → String}
    {rows : List Allocation} {taken : List Block} {candidate : Block} {s : String}
    (htaken : rows.mapM (fun row => block role (column row)) = .ok taken)
    (hfree : isFree taken candidate = true) (hs : Block.ofText s = .ok candidate)
    {row : Allocation} (hrow : row ∈ rows) (a : Address) :
    ¬ (Holds (column row) a ∧ Holds s a) := by
  obtain ⟨b, hmem, hb⟩ := exists_of_forall₂ (mapM_eq_ok_iff.mp htaken) hrow
  rw [isFree, Bool.not_eq_true', List.any_eq_false] at hfree
  exact not_holds_of_overlaps (block_eq_ok_iff.mp hb) hs (Bool.eq_false_iff.mpr (hfree b hmem)) a

/-- Addresses in the written form of one of the routers. -/
structure IsGivenBy (found : Allocation) (routers : List Router) : Prop where
  routerKey : ∃ router ∈ routers, router.publicKey = found.routerKey
  nodeIP : ∃ address : Address, found.nodeIP = address.text
  podNet : ∃ b : Block, found.podNet = b.text

theorem IsGivenBy.isReadable {found : Allocation} {routers : List Router}
    (h : found.IsGivenBy routers) : found.IsReadable := by
  obtain ⟨address, haddress⟩ := h.nodeIP
  obtain ⟨b, hb⟩ := h.podNet
  exact ⟨⟨_, haddress ▸ Block.ofText_text_address address⟩, ⟨_, hb ▸ Block.ofText_text b⟩⟩

structure IsFreeOf (found : Allocation) (nodeIPs podNets : List Block) : Prop where
  node : ∃ b, Block.ofText found.nodeIP = .ok b ∧ isFree nodeIPs b = true
  pod : ∃ b, Block.ofText found.podNet = .ok b ∧ isFree podNets b = true

theorem of_ofRouter? {nodeIPs podNets : List Block} {router : Router} {nodePool podPool : Block}
    {found : Allocation} (h : ofRouter? nodeIPs podNets router nodePool podPool = some found) :
    found.IsGivenBy [router] ∧ found.IsFreeOf nodeIPs podNets := by
  obtain ⟨node, hnode, h⟩ := Option.bind_eq_some_iff.mp h
  obtain ⟨pod, hpod, h⟩ := Option.bind_eq_some_iff.mp h
  obtain rfl := Option.some.inj h
  obtain ⟨hfree, hlen⟩ := Walk.wanted_of_find? hnode
  exact ⟨⟨⟨router, List.mem_singleton_self _, rfl⟩, ⟨node.address, rfl⟩, ⟨pod, rfl⟩⟩,
    ⟨node, Block.ofText_address_text hlen, hfree⟩,
    ⟨pod, Block.ofText_text pod, (Walk.wanted_of_find? hpod).1⟩⟩

theorem IsGivenBy.mono {found : Allocation} {routers more : List Router}
    (h : found.IsGivenBy routers) (hsub : routers ⊆ more) : found.IsGivenBy more :=
  ⟨h.routerKey.imp fun _ hr => ⟨hsub hr.1, hr.2⟩, h.nodeIP, h.podNet⟩

theorem of_search {nodeIPs podNets : List Block} {routers : List Router} {found : Allocation}
    (h : search nodeIPs podNets routers = .ok found) :
    found.IsGivenBy routers ∧ found.IsFreeOf nodeIPs podNets := by
  induction routers with
  | nil => cases h
  | cons router rest ih =>
    rw [search] at h
    obtain ⟨nodePool, -, h⟩ := bind_eq_ok_iff.mp h
    obtain ⟨podPool, -, h⟩ := bind_eq_ok_iff.mp h
    split at h
    next first hfirst =>
      obtain rfl := Except.ok.inj h
      exact (of_ofRouter? hfirst).imp (·.mono (by simp)) id
    next => exact (ih h).imp (·.mono (List.subset_cons_self _ _)) id

theorem of_next {routers : List Router} {taken : Table} {found : Allocation}
    (h : next routers taken = .ok found) :
    found.IsGivenBy routers ∧ ∀ row ∈ taken.rows, row.IsApart found := by
  obtain ⟨nodeIPs, hnodes, h⟩ := bind_eq_ok_iff.mp h
  obtain ⟨podNets, hpods, h⟩ := bind_eq_ok_iff.mp h
  obtain ⟨hgiven, ⟨node, hnode, hnodeFree⟩, ⟨pod, hpod, hpodFree⟩⟩ := of_search h
  refine ⟨hgiven, fun row hrow => ⟨?_, ?_⟩⟩
  · exact not_holds_of_isFree hnodes hnodeFree hnode hrow
  · exact not_holds_of_isFree hpods hpodFree hpod hrow

theorem router?_of_next {networking : Networking} {table : Table} {found : Allocation}
    (h : next networking.routers table = .ok found) :
    ∃ router, networking.router? found.routerKey = some router := by
  obtain ⟨router, hmem, hkey⟩ := (of_next h).1.routerKey
  have hfind : (networking.router? found.routerKey).isSome = true :=
    List.find?_isSome.mpr ⟨router, hmem, by simpa using hkey⟩
  exact Option.isSome_iff_exists.mp hfind

end Allocation

theorem Networking.isSome_router? (networking : Networking) (key : String) :
    (networking.router? key).isSome =
      networking.routers.any fun router => router.publicKey == key := by
  rw [Bool.eq_iff_iff, router?, List.find?_isSome, List.any_eq_true]

end TunnelFleet
