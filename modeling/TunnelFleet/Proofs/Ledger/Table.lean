import TunnelFleet.Proofs.Allocation.Search
import TunnelFleet.Proofs.Allocation.Text
import TunnelFleet.Proofs.Ledger.Traffic

namespace TunnelFleet

/-- A table that can be relied on: its blocks can be read, no key has two rows, no address is
granted twice, and writing the table loses nothing. -/
structure Table.IsSound (t : Table) : Prop where
  readable : ∀ row ∈ t.rows, row.IsReadable
  keys : t.rows.Pairwise fun r s => r.nodeKey ≠ s.nodeKey
  apart : t.rows.Pairwise Allocation.IsApart
  unix : ∀ row ∈ t.rows, row.IsUnix

namespace Table

theorem isSound_empty : IsSound ⟨[]⟩ :=
  ⟨nofun, .nil, .nil, nofun⟩

theorem forall_mem_push {t : Table} {row : Allocation} {P : Allocation → Prop} :
    (∀ r ∈ (t.push row).rows, P r) ↔ (∀ r ∈ t.rows, P r) ∧ P row := by
  rw [push, List.forall_mem_append, List.forall_mem_singleton]

theorem pairwise_push {t : Table} {row : Allocation} {R : Allocation → Allocation → Prop}
    (h : t.rows.Pairwise R) (hrow : ∀ r ∈ t.rows, R r row) : (t.push row).rows.Pairwise R := by
  refine List.pairwise_append.mpr ⟨h, List.pairwise_singleton R row, fun r hr s hs => ?_⟩
  rw [List.mem_singleton.mp hs]
  exact hrow r hr

theorem nodeKey_ne_of_findKey?_none {t : Table} {key : String} (h : t.findKey? key = none) :
    ∀ row ∈ t.rows, row.nodeKey ≠ key := by
  simpa [findKey?] using h

theorem IsSound.push {t : Table} {row : Allocation} (h : t.IsSound) (hreadable : row.IsReadable)
    (hkey : t.findKey? row.nodeKey = none) (hapart : ∀ r ∈ t.rows, r.IsApart row)
    (hunix : row.IsUnix) : (t.push row).IsSound where
  readable := forall_mem_push.mpr ⟨h.readable, hreadable⟩
  keys := pairwise_push h.keys (nodeKey_ne_of_findKey?_none hkey)
  apart := pairwise_push h.apart hapart
  unix := forall_mem_push.mpr ⟨h.unix, hunix⟩

theorem IsSound.push_new {t : Table} {row : Allocation} (h : t.IsSound)
    (hnew : row.IsNew .unix t) : (t.push row).IsSound :=
  h.push hnew.isReadable hnew.unknown hnew.isApart hnew.isUnix

theorem ofText_emptyText : ofText emptyText = .ok ⟨[]⟩ :=
  ofText_text ⟨[]⟩

end Table

namespace Reconcile

theorem table_emptyTable : emptyTable.table = .ok ⟨[]⟩ := by
  have hvalue : emptyTable.value? Names.tableKey = some Table.emptyText := by
    simp [emptyTable, ConfigMap.value?]
  rw [ConfigMap.table, hvalue]
  exact Table.ofText_emptyText

theorem table_withTable (m : ConfigMap) (table : Table) :
    (withTable m table).table = .ok table.unix := by
  rw [ConfigMap.table, value?_withTable]
  exact Table.ofText_text table

end Reconcile

namespace Ledger

/-- Every version of the table can be relied on, and has all rows of the older ones in their
order. -/
structure IsSound (l : Ledger) : Prop where
  sound : ∀ m ∈ l.versions, ∃ table, m.table = .ok table ∧ table.IsSound
  grows : l.versions.Pairwise fun newer older => ∀ table earlier, newer.table = .ok table →
    older.table = .ok earlier → earlier.rows <+: table.rows

/-- What a ledger begins with: no table, or one version of a table that can be relied on. -/
def IsInitial (l : Ledger) : Prop :=
  l.versions = [] ∨ ∃ m table, l.versions = [m] ∧ m.table = .ok table ∧ table.IsSound

theorem IsInitial.isSound {l : Ledger} (h : l.IsInitial) : l.IsSound := by
  rcases h with hnone | ⟨m, table, hone, ht, hsound⟩
  · exact ⟨by simp [hnone], by simp [hnone]⟩
  · refine ⟨fun n hn => ?_, by simp [hone]⟩
    rw [hone, List.mem_singleton] at hn
    exact ⟨table, hn ▸ ht, hsound⟩

theorem table_cons {l : Ledger} {newest : ConfigMap} {older : List ConfigMap}
    (hl : l.versions = newest :: older) : l.table = newest.table := by
  rw [table, current?, hl]
  rfl

theorem table_nil {l : Ledger} (hl : l.versions = []) : l.table = .ok ⟨[]⟩ := by
  rw [table, current?, hl]
  rfl

theorem IsSound.table {l : Ledger} (h : l.IsSound) :
    ∃ table, l.table = .ok table ∧ table.IsSound := by
  cases hl : l.versions with
  | nil => exact ⟨⟨[]⟩, table_nil hl, Table.isSound_empty⟩
  | cons newest older =>
    obtain ⟨table, ht, hsound⟩ := h.sound newest (hl ▸ List.mem_cons_self)
    exact ⟨table, (table_cons hl).trans ht, hsound⟩

theorem table_eq_of_versions {l after : Ledger} (h : after.versions = l.versions) :
    after.table = l.table := by
  rw [table, table, current?, current?, h]

theorem table_of_extend {sent stored : ConfigMap} {table : Table} {row : Allocation}
    (hsound : table.IsSound) (hnew : row.IsNew .unix table)
    (hstored : (Reconcile.withTable sent (table.push row)).IsStoredAs stored) :
    stored.table = .ok (table.push row) := by
  rw [hstored.table_eq, Reconcile.table_withTable,
    Table.unix_eq_self (hsound.push_new hnew).unix]

/-- No change takes a row away or moves it, and none adds more than one. -/
theorem Change.rows {l after : Ledger} (h : l.Change .unix after) (hsound : l.IsSound) :
    ∃ table added, l.table = .ok table ∧ after.table = .ok ⟨table.rows ++ added⟩ ∧
      added.length ≤ 1 := by
  obtain ⟨table, ht, htable⟩ := hsound.table
  refine ⟨table, ?_⟩
  cases h with
  | none => exact ⟨[], ht, by simpa using ht, by simp⟩
  | bootstrap hempty hstored hversions _ =>
    refine ⟨[], ht, ?_, by simp⟩
    rw [table_nil hempty] at ht
    obtain rfl := Except.ok.inj ht
    rw [table_cons hversions, hstored.table_eq, Reconcile.table_emptyTable]
    rfl
  | @extend newest sent stored older table' row after hl ht' hnew hstored hversions _ =>
    rw [table_cons hl] at ht
    obtain rfl : table' = table := Except.ok.inj (ht'.symm.trans ht)
    refine ⟨[row], (table_cons hl).trans ht, ?_, Nat.le_refl 1⟩
    rw [table_cons hversions]
    exact table_of_extend htable hnew hstored
  | publish _ _ hversions _ =>
    refine ⟨[], ht, ?_, by simp⟩
    rw [table_eq_of_versions hversions]
    simpa using ht

theorem IsSound.change {l after : Ledger} (hsound : l.IsSound) (h : l.Change .unix after) :
    after.IsSound := by
  cases h with
  | none => exact hsound
  | bootstrap _ hstored hversions _ =>
    refine ⟨fun m hm => ?_, by simp [hversions]⟩
    rw [hversions, List.mem_singleton] at hm
    exact ⟨⟨[]⟩, by rw [hm, hstored.table_eq, Reconcile.table_emptyTable], Table.isSound_empty⟩
  | @extend newest sent stored older table row after hl ht hnew hstored hversions _ =>
    have hnewest : newest ∈ l.versions := hl ▸ List.mem_cons_self
    obtain ⟨table', ht', htable⟩ := hsound.sound newest hnewest
    obtain rfl : table' = table := Except.ok.inj (ht'.symm.trans ht)
    have hstored := table_of_extend htable hnew hstored
    refine ⟨fun m hm => ?_, ?_⟩
    · rw [hversions, ← hl] at hm
      rcases List.mem_cons.mp hm with rfl | hm
      · exact ⟨_, hstored, htable.push_new hnew⟩
      · exact hsound.sound m hm
    · have hgrows := hsound.grows
      rw [hl] at hgrows
      rw [hversions]
      refine List.pairwise_cons.mpr ⟨fun m hm table earlier hlast hearlier => ?_, hgrows⟩
      obtain rfl := Except.ok.inj (hstored.symm.trans hlast)
      refine List.IsPrefix.trans ?_ (List.prefix_append _ [row])
      rcases List.mem_cons.mp hm with rfl | hm
      · exact Except.ok.inj (hearlier.symm.trans ht) ▸ List.prefix_rfl
      · exact (List.pairwise_cons.mp hgrows).1 m hm _ _ ht hearlier
  | publish _ _ hversions _ =>
    exact ⟨hversions ▸ hsound.sound, hversions ▸ hsound.grows⟩

end Ledger

end TunnelFleet
