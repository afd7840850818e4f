import TunnelFleet.Proofs.Tick.Calls
import TunnelFleet.Proofs.Tick.NodeConfig

namespace TunnelFleet

open Reconcile

/-- All that one call of a tick can do to a ledger: nothing, store a first table without rows, store
the newest table with a new row, or store the config map of a node. -/
inductive Ledger.Change (vetting : Vetting) (l : Ledger) : Ledger → Prop
  | none : Change vetting l l
  | bootstrap {stored : ConfigMap} {after : Ledger} (hempty : l.versions = [])
      (hstored : emptyTable.IsStoredAs stored) (hversions : after.versions = [stored])
      (hpublished : after.published = l.published) : Change vetting l after
  | extend {newest sent stored : ConfigMap} {older : List ConfigMap} {table : Table}
      {row : Allocation} {after : Ledger} (hl : l.versions = newest :: older)
      (ht : newest.table = .ok table) (hnew : row.IsNew vetting table)
      (hstored : (withTable sent (table.push row)).IsStoredAs stored)
      (hversions : after.versions = stored :: newest :: older)
      (hpublished : after.published = l.published) : Change vetting l after
  | publish {name uid : String} {row : Allocation} {networking : Networking} {router : Router}
      {stored : ConfigMap} {after : Ledger} (hrow : l.Grants vetting row)
      (hstored : (NodeConfig.render name uid row networking router).IsStoredAs stored)
      (hversions : after.versions = l.versions)
      (hpublished : after.published = stored :: l.published) : Change vetting l after

theorem Ledger.change_of_accepts {vetting : Vetting} {l after : Ledger} {call : Call}
    {reply : call.Reply} (hmay : May vetting l call) (haccepts : l.Accepts call reply after) :
    l.Change vetting after := by
  cases hmay with
  | bootstrap =>
    obtain ⟨hstored, h⟩ := haccepts
    have hnamed : emptyTable.isNamed Names.allocations = true := by decide
    rw [if_pos hnamed] at h
    obtain ⟨hempty, hversions, hpublished⟩ := h
    exact .bootstrap hempty hstored hversions hpublished
  | @extend m table row hm ht hnew =>
    obtain ⟨hstored, h⟩ := haccepts
    obtain ⟨hnamed, version, hversion, hdata, hnumber⟩ := hm
    rw [isNamed_withTable, hnamed, if_pos rfl] at h
    obtain ⟨⟨newest, hnewest, hcarried⟩, hversions, hpublished⟩ := h
    obtain ⟨older, hl⟩ := List.head?_eq_some_iff.mp hnewest
    -- the number that is carried is the newest one's, so the table that was read is the newest too
    obtain rfl := eq_of_resourceVersion_eq hl hversion (hcarried.trans hnumber)
    rw [ConfigMap.table_eq_of_data hdata] at ht
    exact .extend hl ht hnew hstored (hl ▸ hversions) hpublished
  | publish hrow =>
    obtain ⟨hstored, h⟩ := haccepts
    rw [NodeConfig.isNamed_render (by decide), if_neg Bool.false_ne_true] at h
    obtain ⟨hversions, hpublished⟩ := h
    exact .publish hrow hstored hversions hpublished
  | annotate node notes => exact (show after = l from haccepts) ▸ .none
  | approve request => exact (show after = l from haccepts) ▸ .none

theorem Ledger.Change.before {vetting : Vetting} {l after : Ledger} (h : l.Change vetting after) :
    l.Before after := by
  cases h with
  | none => exact .refl l
  | bootstrap hempty _ hversions hpublished =>
    exact ⟨hempty ▸ List.nil_suffix, hpublished ▸ List.suffix_rfl⟩
  | extend hl _ _ _ hversions hpublished =>
    exact ⟨hl ▸ hversions ▸ List.suffix_cons _ _, hpublished ▸ List.suffix_rfl⟩
  | publish _ _ hversions hpublished =>
    exact ⟨hversions ▸ List.suffix_rfl, hpublished ▸ List.suffix_cons _ _⟩

end TunnelFleet
