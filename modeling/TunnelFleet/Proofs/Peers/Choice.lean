import TunnelFleet.Proofs.Ledger.Routes
import TunnelFleet.Proofs.Tick.Walk

namespace TunnelFleet

namespace Snapshot

/-- A tick can give addresses out of this config map: it is the one with the name of the table, and
its text is not empty and can be read. -/
structure GivesFrom (snapshot : Snapshot) (m : ConfigMap) (text : String) (table : Table) :
    Prop where
  chosen : snapshot.tableMap? = some m
  stored : m.value? Names.tableKey = some text
  nonempty : text ≠ ""
  readable : Table.ofText text = .ok table

theorem GivesFrom.canProvision {snapshot : Snapshot} {m : ConfigMap} {text : String} {table : Table}
    (h : snapshot.GivesFrom m text table) :
    (∀ networking report,
      Reconcile.tableOf snapshot networking report = pure ⟨some m, report⟩) ∧
      ∀ setting, Reconcile.canProvision setting (some m) = setting.networking.isSome := by
  refine ⟨fun networking report => ?_, fun setting => ?_⟩
  · have hfind : (snapshot.configMaps.find? fun m => m.isNamed Names.allocations) = some m :=
      h.chosen
    rw [Reconcile.tableOf, hfind]
  · simp [Reconcile.canProvision, h.stored, h.nonempty]

end Snapshot

/-- A router reads the table that a tick gives from if and only if that is marked as the table and
nothing in front of it is. In whatever order they come, it is enough that nothing else is. -/
theorem routers_read_marked_table {snapshot : Snapshot} {m : ConfigMap} {text : String}
    {table : Table} (h : snapshot.GivesFrom m text table) :
    (PeerSnapshot.table? snapshot.configMaps = some (m, text) ↔
      m.isForTable = true ∧ ∃ before after, snapshot.configMaps = before ++ m :: after ∧
        ∀ n ∈ before, n.isForTable = false) ∧
      (PeerSnapshot.table? snapshot.configMaps = some (m, text) → ∀ routerKey,
        PeerSnapshot.ofConfigMaps snapshot.configMaps routerKey =
          .ok (some ⟨m.tableRef, (table.ofRouter routerKey).map Allocation.peerBlock⟩)) ∧
      (m.isForTable = true → (∀ n ∈ snapshot.configMaps, n.isForTable = true → n = m) →
        PeerSnapshot.table? snapshot.configMaps = some (m, text)) := by
  have hreads : PeerSnapshot.table? snapshot.configMaps = some (m, text) ↔
      snapshot.configMaps.find? ConfigMap.isForTable = some m :=
    PeerSnapshot.table?_eq_some_iff.trans (and_iff_left h.stored)
  refine ⟨?_, fun hread routerKey => ?_, fun hfor honly => ?_⟩
  · rw [hreads, List.find?_eq_some_iff_append]
    simp only [Bool.not_eq_true']
  · exact PeerSnapshot.ofConfigMaps_eq (hreads.mp hread) h.stored h.readable routerKey
  · have hm : m ∈ snapshot.configMaps := List.mem_of_find?_eq_some h.chosen
    exact hreads.mpr (PeerSnapshot.find?_isForTable_of_only hm hfor honly)

namespace Snapshot

def oneRow : Table :=
  ⟨[⟨"K", "R", "n", "10.1.0.1", "10.2.1.0/24"⟩]⟩

def oneRowMap (notes : Option (Dict String)) : ConfigMap :=
  Reconcile.withTable
    { metadata := { name := some Names.allocations, annotations := notes } } oneRow

def tabled (notes : Option (Dict String)) : Snapshot where
  nodes := []
  configMaps := [smallCluster, oneRowMap notes]
  requests := []

theorem givesFrom_tabled (notes : Option (Dict String)) :
    (tabled notes).GivesFrom (oneRowMap notes) oneRow.text oneRow.unix where
  chosen := rfl
  stored := Reconcile.value?_withTable _ _
  nonempty := by decide +kernel
  readable := Table.ofText_text oneRow

end Snapshot

theorem routers_read_marked_table_tabled :
    let notes := some (Dict.empty.insert Names.purposeNote Names.purposeAllocations)
    let snapshot := Snapshot.tabled notes
    let m := Snapshot.oneRowMap notes
    snapshot.GivesFrom m Snapshot.oneRow.text Snapshot.oneRow.unix ∧
      PeerSnapshot.table? snapshot.configMaps = some (m, Snapshot.oneRow.text) ∧
      PeerSnapshot.ofConfigMaps snapshot.configMaps "R" = .ok (some ⟨m.tableRef,
        ["[Peer] # n\nPublicKey = K\nAllowedIPs = 10.1.0.1/32 # node\n" ++
          "AllowedIPs = 10.2.1.0/24 # pods\n"]⟩) := by
  intro notes snapshot m
  have hgives := Snapshot.givesFrom_tabled notes
  obtain ⟨-, hpeers, honly⟩ := routers_read_marked_table hgives
  have hread : PeerSnapshot.table? snapshot.configMaps = some (m, Snapshot.oneRow.text) := by
    refine honly (by decide) fun n hn hfor => ?_
    rcases List.mem_cons.mp hn with rfl | hn
    · exact absurd hfor (by decide)
    · exact List.mem_singleton.mp hn
  have hblocks : (Snapshot.oneRow.unix.ofRouter "R").map Allocation.peerBlock =
      ["[Peer] # n\nPublicKey = K\nAllowedIPs = 10.1.0.1/32 # node\n" ++
        "AllowedIPs = 10.2.1.0/24 # pods\n"] := by
    decide +kernel
  refine ⟨hgives, hread, ?_⟩
  rw [hpeers hread "R", hblocks]

/-- A table without a mark is given from, but no router reads it. -/
theorem not_routers_read_given_table :
    ¬ ∀ (snapshot : Snapshot) (m : ConfigMap) (text : String) (table : Table) (routerKey : String),
      snapshot.GivesFrom m text table →
      PeerSnapshot.ofConfigMaps snapshot.configMaps routerKey =
        .ok (some ⟨m.tableRef, (table.ofRouter routerKey).map Allocation.peerBlock⟩) := by
  intro h
  have hnone : PeerSnapshot.ofConfigMaps (Snapshot.tabled none).configMaps "R" = .ok none := rfl
  cases hnone.symm.trans (h _ _ _ _ "R" (Snapshot.givesFrom_tabled none))

end TunnelFleet
