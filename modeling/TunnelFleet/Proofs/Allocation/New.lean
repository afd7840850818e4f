import TunnelFleet.Proofs.Allocation.Search
import TunnelFleet.Proofs.Allocation.Text

namespace TunnelFleet

/-- Which texts come into a table: the keys that nodes publish, the names of nodes, and the keys of
routers. -/
structure Vetting where
  key : String → Prop
  name : String → Prop
  router : String → Prop

/-- No text has a carriage return directly before a line feed. -/
def Vetting.unix : Vetting :=
  ⟨Text.IsUnix, Text.IsUnix, Text.IsUnix⟩

namespace Allocation

/-- A row that a tick may add to a table: the next free addresses for a key that has no row. -/
structure IsNew (vetting : Vetting) (table : Table) (row : Allocation) : Prop where
  unknown : table.findKey? row.nodeKey = none
  free : ∃ routers found, next routers table = .ok found ∧
    row = { found with nodeKey := row.nodeKey, nodeName := row.nodeName }
  key : vetting.key row.nodeKey
  name : vetting.name row.nodeName
  router : vetting.router row.routerKey

theorem isUnix_of_ofText {s : String} {b : Block} (h : Block.ofText s = .ok b) : Text.IsUnix s :=
  Text.isUnix_of_not_mem (Block.not_mem_of_ofText h (by simp [Block.IsTextChar]))

theorem IsReadable.isUnix_nodeIP {row : Allocation} (h : row.IsReadable) : Text.IsUnix row.nodeIP :=
  h.1.elim fun _ => isUnix_of_ofText

theorem IsReadable.isUnix_podNet {row : Allocation} (h : row.IsReadable) : Text.IsUnix row.podNet :=
  h.2.elim fun _ => isUnix_of_ofText

namespace IsNew

variable {vetting : Vetting} {table : Table} {row : Allocation}

theorem isReadable (h : row.IsNew vetting table) : row.IsReadable := by
  obtain ⟨routers, found, hfound, hrow⟩ := h.free
  rw [hrow]
  exact (of_next hfound).1.isReadable

theorem isApart (h : row.IsNew vetting table) : ∀ r ∈ table.rows, r.IsApart row := by
  obtain ⟨routers, found, hfound, hrow⟩ := h.free
  rw [hrow]
  exact (of_next hfound).2

theorem isUnix (h : row.IsNew .unix table) : row.IsUnix where
  nodeKey := h.key
  routerKey := h.router
  nodeName := h.name
  nodeIP := h.isReadable.isUnix_nodeIP
  podNet := h.isReadable.isUnix_podNet

end IsNew

end Allocation

end TunnelFleet
