import TunnelFleet.Proofs.Allocation.Deal
import TunnelFleet.Proofs.Allocation.FirstFit

namespace TunnelFleet

open Allocation

/-- The blocks that a search reads out of a table and keeps clear of, row by row. -/
structure Table.Takes (table : Table) (nodes pods : List Block) : Prop where
  nodes : table.nodeIPs.mapM (block .nodeIP) = .ok nodes
  pods : table.podNets.mapM (block .podNet) = .ok pods

namespace Table.Takes

variable {table other : Table} {nodes pods : List Block} {row : Allocation} {node pod : Block}

theorem of_isReadable (h : ∀ row ∈ table.rows, row.IsReadable) :
    table.Takes (blocks table.nodeIPs) (blocks table.podNets) where
  nodes := by
    rw [nodeIPs, ← mapM_block_map]
    exact mapM_block_eq_ok fun row hrow => (h row hrow).1
  pods := by
    rw [podNets, ← mapM_block_map]
    exact mapM_block_eq_ok fun row hrow => (h row hrow).2

theorem next_eq (h : table.Takes nodes pods) (routers : List Router) :
    next routers table = search nodes pods routers := by
  have hnodes : (table.rows.map (·.nodeIP)).mapM (block .nodeIP) = .ok nodes := h.nodes
  have hpods : (table.rows.map (·.podNet)).mapM (block .podNet) = .ok pods := h.pods
  rw [next, mapM_block_map, mapM_block_map, hnodes, hpods]
  rfl

theorem isReadable (h : table.Takes nodes pods) : ∀ row ∈ table.rows, row.IsReadable := by
  intro row hrow
  obtain ⟨node, -, hnode⟩ := exists_of_forall₂ (mapM_eq_ok_iff.mp h.nodes) (List.mem_map_of_mem hrow)
  obtain ⟨pod, -, hpod⟩ := exists_of_forall₂ (mapM_eq_ok_iff.mp h.pods) (List.mem_map_of_mem hrow)
  exact ⟨⟨node, block_eq_ok_iff.mp hnode⟩, ⟨pod, block_eq_ok_iff.mp hpod⟩⟩

theorem push (h : table.Takes nodes pods) (hnode : block .nodeIP row.nodeIP = .ok node)
    (hpod : block .podNet row.podNet = .ok pod) :
    (table.push row).Takes (nodes ++ [node]) (pods ++ [pod]) where
  nodes := by
    rw [nodeIPs, Table.push, List.map_append]
    exact mapM_concat_eq_ok h.nodes hnode
  pods := by
    rw [podNets, Table.push, List.map_append]
    exact mapM_concat_eq_ok h.pods hpod

theorem congr (h : table.Takes nodes pods) (haddresses : other.addresses = table.addresses) :
    other.Takes nodes pods where
  nodes := nodeIPs_congr haddresses ▸ h.nodes
  pods := podNets_congr haddresses ▸ h.pods

/-- Writing a table and reading it again changes nothing that a search looks at. -/
theorem addresses_unix (h : table.Takes nodes pods) : table.unix.addresses = table.addresses :=
  Table.addresses_unix fun row hrow =>
    ⟨(h.isReadable row hrow).isUnix_nodeIP, (h.isReadable row hrow).isUnix_podNet⟩

end Table.Takes

theorem Router.Chooses.len_node {r : Router} {nodes pods : List Block} {node pod : Block}
    (h : r.Chooses nodes pods node pod) : node.len = 32 := by
  obtain ⟨pool, -, hfirst⟩ := h.node
  exact (Walk.wanted_of_find? hfirst).2

namespace Allocation

/-- What a search has chosen is read back from its texts: the address as a block of its own, and the
block for pods with its host bits and its mask. The row may be put in for any node: the table is
written and read again, and a search over it keeps clear of what it kept clear of before, of what was
chosen, and of nothing else. -/
theorem next_reads_back {routers : List Router} {table : Table} {found : Allocation}
    (h : next routers table = .ok found) (nodeKey nodeName : String) :
    ∃ (front : List Router) (owner : Router) (nodes pods : List Block) (node pod : Block),
      IsTakenFrom routers table found front owner ∧ table.Takes nodes pods ∧
      owner.Chooses nodes pods node pod ∧
      node.len = 32 ∧ block .nodeIP found.nodeIP = .ok node ∧ block .podNet found.podNet = .ok pod ∧
      ∃ again, Table.ofText (table.push { found with nodeKey, nodeName }).text = .ok again ∧
        again.addresses = table.addresses ++ [(found.nodeIP, found.podNet)] ∧
        again.Takes (nodes ++ [node]) (pods ++ [pod]) ∧
        ∀ others, next others again = search (nodes ++ [node]) (pods ++ [pod]) others := by
  obtain ⟨front, owner, htaken⟩ := exists_owner_of_next h
  obtain ⟨node, pod, hchooses, rfl⟩ := Router.exists_chooses_of_pick? htaken.picked
  have htakes := Table.Takes.of_isReadable (isReadable_of_next h)
  have hnode : block .nodeIP node.address.text = .ok node :=
    block_eq_ok_iff.mpr (Block.ofText_address_text hchooses.len_node)
  have hpod : block .podNet pod.text = .ok pod := block_eq_ok_iff.mpr (Block.ofText_text pod)
  let row : Allocation := { owner.row node pod with nodeKey, nodeName }
  have hpushed : (table.push row).Takes _ _ := htakes.push hnode hpod
  -- the written row counts among those that can be read, so that its texts come back as they are
  have hagain := hpushed.congr hpushed.addresses_unix
  refine ⟨front, owner, _, _, node, pod, htaken, htakes, hchooses, hchooses.len_node, hnode, hpod,
    (table.push row).unix, Table.ofText_text _, ?_, hagain, hagain.next_eq⟩
  rw [hpushed.addresses_unix, Table.addresses_push]

/-- Keys with broken lines do not come back as they were, and one row has a dotted mask. The addresses
come back all the same, so that the next search passes over what was chosen. -/
theorem next_reads_back_broken_keys :
    let routers : List Router :=
      [⟨"A", "a:1", "10.1.0.0/30", "10.2.0.0/22", 24⟩, ⟨"B", "b:1", "10.1.1.3/29", "10.2.4.77/20", 24⟩]
    let table : Table := ⟨[⟨"K\r\n", "X", "k", "10.1.1.4", "10.2.0.0/22"⟩,
      ⟨"L", "X", "l", "10.1.1.8/30", "10.2.5.128/255.255.255.128"⟩]⟩
    let found : Allocation := ⟨"", "B", "", "10.1.1.5", "10.2.6.77/24"⟩
    let row : Allocation := { found with nodeKey := "M,\"\r\n", nodeName := "m\r\n" }
    next routers table = .ok found ∧
      ∃ nodes pods again, table.Takes nodes pods ∧
        Table.ofText (table.push row).text = .ok again ∧ again ≠ table.push row ∧
        again.Takes (nodes ++ [⟨⟨167837957, by decide⟩, 32, by decide⟩])
          (pods ++ [⟨⟨167904845, by decide⟩, 24, by decide⟩]) ∧
        next routers again = .ok ⟨"", "B", "", "10.1.1.6", "10.2.7.77/24"⟩ := by
  intro routers table found row
  have hnext : next routers table = .ok found := by decide +kernel
  obtain ⟨-, -, nodes, pods, node, pod, -, htakes, -, -, hnode, hpod, again, hread, -, hagain, -⟩ :=
    next_reads_back hnext row.nodeKey row.nodeName
  have hnodeRead : block .nodeIP found.nodeIP = .ok ⟨⟨167837957, by decide⟩, 32, by decide⟩ := by
    decide +kernel
  have hpodRead : block .podNet found.podNet = .ok ⟨⟨167904845, by decide⟩, 24, by decide⟩ := by
    decide +kernel
  obtain rfl := Except.ok.inj (hnodeRead.symm.trans hnode)
  obtain rfl := Except.ok.inj (hpodRead.symm.trans hpod)
  obtain rfl := Except.ok.inj ((Table.ofText_text (table.push row)).symm.trans hread)
  exact ⟨hnext, nodes, pods, _, htakes, hread, by decide +kernel, hagain, by decide +kernel⟩

end Allocation

end TunnelFleet
