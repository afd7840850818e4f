import Mathlib.Data.List.Pairwise
import TunnelFleet.Proofs.Ledger.Table
import TunnelFleet.Proofs.Tick.NodeConfig

namespace TunnelFleet

namespace Table

theorem mem_of_findKey? {t : Table} {key : String} {row : Allocation}
    (h : t.findKey? key = some row) : row ∈ t.rows :=
  List.mem_of_find?_eq_some h

theorem findKey?_of_prefix {t longer : Table} {key : String} {row : Allocation}
    (hbegin : t.rows <+: longer.rows) (h : t.findKey? key = some row) :
    longer.findKey? key = some row := by
  obtain ⟨added, hadded⟩ := hbegin
  rw [findKey?] at h
  rw [findKey?, ← hadded, List.find?_append, h]
  rfl

theorem findKey?_push {t : Table} {row : Allocation} (h : t.findKey? row.nodeKey = none) :
    (t.push row).findKey? row.nodeKey = some row := by
  rw [findKey?] at h
  rw [findKey?, push, List.find?_append, h]
  simp

theorem IsSound.isApart {t : Table} (h : t.IsSound) {r s : Allocation} (hr : r ∈ t.rows)
    (hs : s ∈ t.rows) (hne : r.nodeKey ≠ s.nodeKey) : r.IsApart s :=
  h.apart.forall hr hs fun heq => hne (heq ▸ rfl)

end Table

namespace Ledger

variable {l after : Ledger}

theorem IsSound.rows_prefix (h : l.IsSound) {m : ConfigMap} {table earlier : Table}
    (hm : m ∈ l.versions) (hearlier : m.table = .ok earlier) (ht : l.table = .ok table) :
    earlier.rows <+: table.rows := by
  cases hl : l.versions with
  | nil => simp [hl] at hm
  | cons newest older =>
    rw [table_cons hl] at ht
    rw [hl] at hm
    have hgrows := h.grows
    rw [hl] at hgrows
    rcases List.mem_cons.mp hm with rfl | hm
    · obtain rfl := Except.ok.inj (hearlier.symm.trans ht)
      exact List.prefix_rfl
    · exact (List.pairwise_cons.mp hgrows).1 m hm table earlier ht hearlier

theorem IsSound.findKey?_of_grants (h : l.IsSound) {table : Table} {row : Allocation}
    (ht : l.table = .ok table) (hrow : l.Grants .unix row) :
    table.findKey? row.nodeKey = some row := by
  cases hrow with
  | found hm hearlier hfound => exact Table.findKey?_of_prefix (h.rows_prefix hm hearlier ht) hfound
  | @stored m next earlier row hm hearlier hnew hnext htext =>
    obtain ⟨_, heq, hsound⟩ := h.sound m hm
    obtain rfl := Except.ok.inj (hearlier.symm.trans heq)
    have hpushed : next.table = .ok (earlier.push row) := by
      rw [ConfigMap.table, htext, Option.getD_some, Table.ofText_text,
        Table.unix_eq_self (hsound.push_new hnew).unix]
    exact Table.findKey?_of_prefix (h.rows_prefix hnext hpushed ht)
      (Table.findKey?_push hnew.unknown)

def NodesAgree (l : Ledger) : Prop :=
  ∀ table, l.table = .ok table → ∀ m ∈ l.published, ∃ row,
    table.findKey? row.nodeKey = some row ∧ NodeConfig.IsFor row m

theorem NodesAgree.change (hsound : l.IsSound) (hagree : l.NodesAgree)
    (h : l.Change .unix after) : after.NodesAgree := by
  intro newer hnewer m hm
  obtain ⟨table, added, ht, hafter, -⟩ := h.rows hsound
  obtain rfl := Except.ok.inj (hafter.symm.trans hnewer)
  have hbegin : table.rows <+: table.rows ++ added := List.prefix_append _ _
  have hold : ∀ m ∈ l.published, ∃ row,
      Table.findKey? ⟨table.rows ++ added⟩ row.nodeKey = some row ∧ NodeConfig.IsFor row m := by
    intro m hm
    obtain ⟨row, hrow, hfor⟩ := hagree table ht m hm
    exact ⟨row, Table.findKey?_of_prefix hbegin hrow, hfor⟩
  cases h with
  | none => exact hold m hm
  | bootstrap _ _ _ hpublished => exact hold m (hpublished ▸ hm)
  | extend _ _ _ _ _ hpublished => exact hold m (hpublished ▸ hm)
  | publish hrow hstored _ hpublished =>
    rw [hpublished] at hm
    rcases List.mem_cons.mp hm with rfl | hm
    · have hfound := hsound.findKey?_of_grants ht hrow
      obtain ⟨_, heq, htable⟩ := hsound.table
      obtain rfl := Except.ok.inj (ht.symm.trans heq)
      have hreadable := htable.readable _ (Table.mem_of_findKey? hfound)
      exact ⟨_, Table.findKey?_of_prefix hbegin hfound,
        (NodeConfig.isFor_render hreadable).isStoredAs hstored⟩
    · exact hold m hm

end Ledger

namespace NodeConfig

def HoldsNode (m : ConfigMap) (a : Address) : Prop :=
  ∃ s, address? m = some (s ++ "/32") ∧ Allocation.Holds s a

def HoldsPod (m : ConfigMap) (a : Address) : Prop :=
  ∃ s, subnet? m = some s ∧ Allocation.Holds s a

theorem IsFor.holdsNode {row : Allocation} {m : ConfigMap} {a : Address} (h : IsFor row m)
    (ha : HoldsNode m a) : Allocation.Holds row.nodeIP a := by
  obtain ⟨s, hs, ha⟩ := ha
  have heq := Option.some.inj (h.address.symm.trans hs)
  rwa [(String.append_left_inj "/32").mp heq]

theorem IsFor.holdsPod {row : Allocation} {m : ConfigMap} {a : Address} (h : IsFor row m)
    (ha : HoldsPod m a) : Allocation.Holds row.podNet a := by
  obtain ⟨s, hs, ha⟩ := ha
  rwa [Option.some.inj (h.subnet.symm.trans hs)]

/-- The keys of two config maps of nodes tell whether they have the same addresses or none in
common. -/
structure AreToldApart (m n : ConfigMap) : Prop where
  same : key? m = key? n ↔ address? m = address? n ∧ subnet? m = subnet? n
  nodes : key? m ≠ key? n → ∀ a, ¬ (HoldsNode m a ∧ HoldsNode n a)
  pods : key? m ≠ key? n → ∀ a, ¬ (HoldsPod m a ∧ HoldsPod n a)

theorem areToldApart_of_isFor {table : Table} (hsound : table.IsSound) {m n : ConfigMap}
    {r s : Allocation} (hr : table.findKey? r.nodeKey = some r)
    (hs : table.findKey? s.nodeKey = some s) (hm : IsFor r m) (hn : IsFor s n) :
    AreToldApart m n := by
  have hapart (hne : r.nodeKey ≠ s.nodeKey) : r.IsApart s :=
    hsound.isApart (Table.mem_of_findKey? hr) (Table.mem_of_findKey? hs) hne
  have hkey : key? m = key? n ↔ r.nodeKey = s.nodeKey := by
    rw [hm.key, hn.key, Option.some.injEq]
  refine ⟨?_, fun hne a ha => ?_, fun hne a ha => ?_⟩
  · constructor
    · intro heq
      rw [hkey.mp heq, hs, Option.some.injEq] at hr
      subst hr
      exact ⟨hm.address.trans hn.address.symm, hm.subnet.trans hn.subnet.symm⟩
    · rintro ⟨-, hsubnet⟩
      by_contra hne
      rw [hkey] at hne
      obtain ⟨-, b, hb⟩ := hsound.readable r (Table.mem_of_findKey? hr)
      rw [hm.subnet, hn.subnet, Option.some.injEq] at hsubnet
      have hown : Allocation.Holds r.podNet b.address := ⟨b, hb, b.contains_address⟩
      exact (hapart hne).2 _ ⟨hown, hsubnet ▸ hown⟩
  · exact (hapart (mt hkey.mpr hne)).1 a ⟨hm.holdsNode ha.1, hn.holdsNode ha.2⟩
  · exact (hapart (mt hkey.mpr hne)).2 a ⟨hm.holdsPod ha.1, hn.holdsPod ha.2⟩

end NodeConfig

end TunnelFleet
