import TunnelFleet.Proofs.Ledger.Server
import TunnelFleet.Proofs.Ledger.Table
import TunnelFleet.Proofs.Peers.Lines

namespace TunnelFleet

def Vetting.oneLineNames : Vetting where
  key _ := True
  name s := '\n' ∉ s.toList
  router _ := True

namespace Allocation

/-- A row has the addresses that were free when it was made. -/
def IsAllocated (row : Allocation) : Prop :=
  ∃ routers taken found, next routers taken = .ok found ∧ row.nodeIP = found.nodeIP ∧
    row.podNet = found.podNet

theorem IsAllocated.isReadable {row : Allocation} (h : row.IsAllocated) : row.IsReadable := by
  obtain ⟨routers, taken, found, hfound, hnode, hpod⟩ := h
  have hreadable := (of_next hfound).1.isReadable
  rwa [IsReadable, ← hnode, ← hpod] at hreadable

/-- A row whose key may be any text, but for what its node alone decides. -/
structure IsFenced (row : Allocation) : Prop where
  nodeName : '\n' ∉ row.nodeName.toList
  allocated : row.IsAllocated

theorem IsFenced.isOneLine {row : Allocation} (h : row.IsFenced) : row.IsOneLine := by
  obtain ⟨⟨b, hb⟩, c, hc⟩ := h.allocated.isReadable
  exact ⟨h.nodeName, Block.not_mem_of_ofText hb (by simp [Block.IsTextChar]),
    Block.not_mem_of_ofText hc (by simp [Block.IsTextChar])⟩

theorem IsFenced.unix {row : Allocation} (h : row.IsFenced) : row.unix.IsFenced := by
  have hname : Text.unix row.nodeName = row.nodeName :=
    Text.unix_eq_self fun hs => h.nodeName (hs.subset (by simp))
  have hreadable := h.allocated.isReadable
  obtain ⟨routers, taken, found, hfound, hnode, hpod⟩ := h.allocated
  refine ⟨?_, routers, taken, found, hfound, ?_, ?_⟩
  · show '\n' ∉ (Text.unix row.nodeName).toList
    rw [hname]
    exact h.nodeName
  · exact (Text.unix_eq_self hreadable.isUnix_nodeIP).trans hnode
  · exact (Text.unix_eq_self hreadable.isUnix_podNet).trans hpod

theorem IsNew.isFenced {table : Table} {row : Allocation} (h : row.IsNew .oneLineNames table) :
    row.IsFenced := by
  obtain ⟨routers, found, hfound, hrow⟩ := h.free
  exact ⟨h.name, routers, table, found, hfound, by rw [hrow], by rw [hrow]⟩

end Allocation

namespace Ledger

def IsFencedVersion (m : ConfigMap) : Prop :=
  ∃ text table, m.value? Names.tableKey = some text ∧ Table.ofText text = .ok table ∧
    ∀ row ∈ table.rows, row.IsFenced

theorem isFencedVersion_of_stored {sent stored : ConfigMap} {text : String} {table : Table}
    (hstored : sent.IsStoredAs stored) (htext : sent.value? Names.tableKey = some text)
    (ht : Table.ofText text = .ok table) (hrows : ∀ row ∈ table.rows, row.IsFenced) :
    IsFencedVersion stored :=
  ⟨text, table, (hstored.value?_eq _).trans htext, ht, hrows⟩

theorem isFencedVersion_emptyTable {stored : ConfigMap}
    (h : Reconcile.emptyTable.IsStoredAs stored) : IsFencedVersion stored := by
  have htext : Reconcile.emptyTable.value? Names.tableKey = some Table.emptyText := by
    simp [Reconcile.emptyTable, ConfigMap.value?]
  exact isFencedVersion_of_stored h htext Table.ofText_emptyText (List.forall_mem_nil _)

def IsFenced (l : Ledger) : Prop :=
  ∀ m ∈ l.versions, IsFencedVersion m

theorem IsFenced.change {l after : Ledger} (hfenced : l.IsFenced)
    (h : l.Change .oneLineNames after) : after.IsFenced := by
  cases h with
  | none => exact hfenced
  | bootstrap _ hstored hversions _ =>
    intro m hm
    rw [hversions, List.mem_singleton] at hm
    exact hm ▸ isFencedVersion_emptyTable hstored
  | @extend newest sent stored older table row after hl ht hnew hstored hversions _ =>
    intro m hm
    rw [hversions, ← hl] at hm
    rcases List.mem_cons.mp hm with rfl | hm
    · obtain ⟨text, read, htext, hread, hrows⟩ := hfenced newest (hl ▸ List.mem_cons_self)
      rw [ConfigMap.table, htext, Option.getD_some, hread] at ht
      obtain rfl := Except.ok.inj ht
      have hpushed := Table.forall_mem_push.mpr ⟨hrows, hnew.isFenced⟩
      refine isFencedVersion_of_stored hstored (Reconcile.value?_withTable _ _)
        (Table.ofText_text _) ?_
      exact List.forall_mem_map.mpr fun r hr => (hpushed r hr).unix
    · exact hfenced m hm
  | publish _ _ hversions _ => exact fun m hm => hfenced m (hversions ▸ hm)

end Ledger

def ConfigMap.isForTable (m : ConfigMap) : Bool :=
  m.metadata.note? Names.purposeNote == some Names.purposeAllocations

namespace PeerSnapshot

variable {configMaps : List ConfigMap} {m : ConfigMap} {text : String}

theorem table?_eq (configMaps : List ConfigMap) :
    table? configMaps = (configMaps.find? ConfigMap.isForTable).bind fun m =>
      (m.value? Names.tableKey).bind fun text => some (m, text) :=
  rfl

theorem table?_eq_some_iff : table? configMaps = some (m, text) ↔
    configMaps.find? ConfigMap.isForTable = some m ∧ m.value? Names.tableKey = some text := by
  rw [table?_eq]
  constructor
  · intro h
    obtain ⟨found, hfound, h⟩ := Option.bind_eq_some_iff.mp h
    obtain ⟨read, hread, h⟩ := Option.bind_eq_some_iff.mp h
    obtain ⟨rfl, rfl⟩ := Prod.mk.inj (Option.some.inj h)
    exact ⟨hfound, hread⟩
  · rintro ⟨hfind, htext⟩
    rw [hfind, Option.bind_some, htext, Option.bind_some]

theorem ofConfigMaps_eq {table : Table} (hfind : configMaps.find? ConfigMap.isForTable = some m)
    (htext : m.value? Names.tableKey = some text) (ht : Table.ofText text = .ok table)
    (routerKey : String) : ofConfigMaps configMaps routerKey =
      .ok (some ⟨m.tableRef, (table.ofRouter routerKey).map Allocation.peerBlock⟩) := by
  have htable : table? configMaps = some (m, text) := table?_eq_some_iff.mpr ⟨hfind, htext⟩
  simp [ofConfigMaps, htable, ht, Except.map]

theorem find?_isForTable_of_only (hm : m ∈ configMaps) (hfor : m.isForTable = true)
    (honly : ∀ n ∈ configMaps, n.isForTable = true → n = m) :
    configMaps.find? ConfigMap.isForTable = some m := by
  have hsome : (configMaps.find? ConfigMap.isForTable).isSome = true :=
    List.find?_isSome.mpr ⟨m, hm, hfor⟩
  obtain ⟨found, hfound⟩ := Option.isSome_iff_exists.mp hsome
  rw [hfound, honly found (List.mem_of_find?_eq_some hfound) (List.find?_some hfound)]

end PeerSnapshot

namespace Traffic

/-- In the text of a router's peers, the lines that begin a peer or route addresses are those of its
rows, with the addresses that were free when the row was made, and those that a key brings along
behind its first line. The text keeps to the rows if and only if all of their keys are contained. -/
theorem peer_lines_allocated {start t : Traffic} (hticks : start.ticks = [])
    (hstart : start.ledger.versions = [] ∨
      ∃ m, start.ledger.versions = [m] ∧ Reconcile.emptyTable.IsStoredAs m)
    (h : Reach .oneLineNames start t) {configMaps : List ConfigMap} {m version : ConfigMap}
    (hfind : configMaps.find? ConfigMap.isForTable = some m) (hv : version ∈ t.ledger.versions)
    (hdata : m.data = version.data) (routerKey : String) :
    ∃ table blocks, version.table = .ok table ∧
      PeerSnapshot.ofConfigMaps configMaps routerKey = .ok (some ⟨m.tableRef, blocks⟩) ∧
      (∀ row ∈ table.rows, row.IsAllocated) ∧
      Allocation.AreLinesOf (table.ofRouter routerKey) (String.join blocks) := by
  have hinitial : start.ledger.IsFenced := by
    intro m hm
    rcases hstart with hnone | ⟨first, hfirst, hstored⟩
    · simp [hnone] at hm
    · rw [hfirst, List.mem_singleton] at hm
      exact hm ▸ Ledger.isFencedVersion_emptyTable hstored
  obtain ⟨hfenced, -⟩ := h.kept (fun _ _ => Ledger.IsFenced.change) hticks hinitial
  obtain ⟨text, table, htext, ht, hrows⟩ := hfenced version hv
  have hmtext : m.value? Names.tableKey = some text := by
    rw [ConfigMap.value?, hdata]
    exact htext
  have hline : ∀ row ∈ table.ofRouter routerKey, row.IsOneLine :=
    fun row hrow => (hrows row (List.mem_filter.mp hrow).1).isOneLine
  refine ⟨table, _, ?_, PeerSnapshot.ofConfigMaps_eq hfind hmtext ht routerKey,
    fun row hrow => (hrows row hrow).allocated, Allocation.areLinesOf_join hline⟩
  rw [ConfigMap.table, htext]
  exact ht

theorem peer_lines_allocated_small :
    Traffic.idle.ticks = [] ∧ Traffic.idle.ledger.versions = [] ∧
      Reach .oneLineNames idle (small "n" "K" 2) ∧
      ∃ version ∈ (small "n" "K" 2).ledger.versions,
        [version].find? ConfigMap.isForTable = some version ∧
        ∃ table blocks, version.table = .ok table ∧
          PeerSnapshot.ofConfigMaps [version] "R" = .ok (some ⟨version.tableRef, blocks⟩) ∧
          (∀ row ∈ table.rows, row.IsAllocated) ∧
          Allocation.AreLinesOf (table.ofRouter "R") (String.join blocks) := by
  have hreach : Reach .oneLineNames idle (small "n" "K" 2) :=
    reach_small trivial (show '\n' ∉ "n".toList by decide) trivial 2
  have hstored : (small "n" "K" 2).ledger.versions.head?.any ConfigMap.isForTable = true := by
    decide +kernel
  obtain ⟨version, hhead, hfor⟩ := (Option.any_eq_true _ _).mp hstored
  have hv := List.mem_of_head? hhead
  have hfind : [version].find? ConfigMap.isForTable = some version :=
    List.find?_cons_of_pos hfor
  exact ⟨rfl, rfl, hreach, version, hv, hfind,
    peer_lines_allocated rfl (.inl rfl) hreach hfind hv rfl "R"⟩

/-- A key of two lines brings along a route that no row has. -/
theorem not_routes_of_rows :
    Reach .oneLineNames idle (small "n" "K\nAllowedIPs = 0.0.0.0/0" 2) ∧
      ∃ version ∈ (small "n" "K\nAllowedIPs = 0.0.0.0/0" 2).ledger.versions,
        ∃ table snapshot, version.table = .ok table ∧
          PeerSnapshot.ofConfigMaps [version] "R" = .ok (some snapshot) ∧
          "AllowedIPs = 0.0.0.0/0" ∈
            Text.linesFrom "AllowedIPs" (String.join snapshot.blocks) ∧
          ∀ row ∈ table.ofRouter "R", "AllowedIPs = 0.0.0.0/0" ≠ row.nodeRoute ∧
            "AllowedIPs = 0.0.0.0/0" ≠ row.podRoute := by
  refine ⟨reach_small trivial (show '\n' ∉ "n".toList by decide) trivial 2, ?_⟩
  have hstored : ((small "n" "K\nAllowedIPs = 0.0.0.0/0" 2).ledger.versions.head?.map fun version =>
      (version.table.toOption, (PeerSnapshot.ofConfigMaps [version] "R").toOption.map fun found =>
        found.map fun snapshot => Text.linesFrom "AllowedIPs" (String.join snapshot.blocks))) =
      some (some ⟨[⟨"K\nAllowedIPs = 0.0.0.0/0", "R", "n", "10.1.0.1", "10.2.1.0/24"⟩]⟩,
        some (some ["AllowedIPs = 0.0.0.0/0", "AllowedIPs = 10.1.0.1/32 # node",
          "AllowedIPs = 10.2.1.0/24 # pods"])) := by decide +kernel
  obtain ⟨version, hhead, hread⟩ := Option.map_eq_some_iff.mp hstored
  obtain ⟨htable, hpeers⟩ := Prod.mk.inj hread
  obtain ⟨found, hfound, hmapped⟩ := Option.map_eq_some_iff.mp hpeers
  obtain ⟨snapshot, rfl, hlines⟩ := Option.map_eq_some_iff.mp hmapped
  refine ⟨version, List.mem_of_head? hhead, _, snapshot, eq_ok_of_toOption htable,
    eq_ok_of_toOption hfound, ?_, by decide⟩
  rw [hlines]
  exact List.mem_cons_self

end Traffic

end TunnelFleet
