import TunnelFleet.Tick.Reconcile

namespace TunnelFleet

/-- The table that a config map holds. Without a text it has no rows. -/
def ConfigMap.table (m : ConfigMap) : Except TableError Table :=
  Table.ofText ((m.value? Names.tableKey).getD "")

theorem ConfigMap.table_eq_of_data {m n : ConfigMap} (h : m.data = n.data) : m.table = n.table := by
  rw [table, table, value?, value?, h]

/-- A cluster stores a config map as it is sent, apart from what it manages by itself, such as the
version. -/
structure ConfigMap.IsStoredAs (sent stored : ConfigMap) : Prop where
  name : stored.metadata.name = sent.metadata.name
  annotations : stored.metadata.annotations = sent.metadata.annotations
  data : stored.data = sent.data

namespace ConfigMap.IsStoredAs

variable {sent stored : ConfigMap}

theorem value?_eq (h : sent.IsStoredAs stored) (key : String) :
    stored.value? key = sent.value? key := by
  rw [value?, h.data]
  rfl

theorem note?_eq (h : sent.IsStoredAs stored) (key : String) :
    stored.metadata.note? key = sent.metadata.note? key := by
  rw [Meta.note?, h.annotations]
  rfl

theorem table_eq (h : sent.IsStoredAs stored) : stored.table = sent.table :=
  table_eq_of_data h.data

end ConfigMap.IsStoredAs

/-- What a cluster keeps of the config maps that ticks write: every version of the table's, newest
first, and those that were stored for nodes. `distinct` is an assumption on the server of the
cluster, carried along as a field: it gives no two versions of the table the same number. What is
shown of ledgers is shown under it. -/
structure Ledger where
  versions : List ConfigMap
  published : List ConfigMap
  named : ∀ m ∈ versions, m.isNamed Names.allocations = true
  distinct : versions.Pairwise fun m n =>
    m.metadata.resourceVersion ≠ n.metadata.resourceVersion

namespace Ledger

theorem eq_of_resourceVersion_eq {l : Ledger} {m newest : ConfigMap} {older : List ConfigMap}
    (hl : l.versions = newest :: older) (hm : m ∈ l.versions)
    (heq : newest.metadata.resourceVersion = m.metadata.resourceVersion) : m = newest := by
  have hdistinct := l.distinct
  rw [hl] at hm hdistinct
  rcases List.mem_cons.mp hm with rfl | hm
  · rfl
  · exact absurd heq ((List.pairwise_cons.mp hdistinct).1 m hm)

/-- A config map that may be taken for the table's: it has the text and the number of a version that
was stored. -/
def Shows (l : Ledger) (m : ConfigMap) : Prop :=
  m.isNamed Names.allocations = true ∧ ∃ v ∈ l.versions, m.data = v.data ∧
    m.metadata.resourceVersion = v.metadata.resourceVersion

theorem shows_of_mem {l : Ledger} {m : ConfigMap} (hm : m ∈ l.versions) : l.Shows m :=
  ⟨l.named m hm, m, hm, rfl, rfl⟩

def current? (l : Ledger) : Option ConfigMap :=
  l.versions.head?

/-- The table as it is committed; before there is one it has no rows. -/
def table (l : Ledger) : Except TableError Table :=
  match l.current? with
  | none => .ok ⟨[]⟩
  | some m => m.table

structure Before (l after : Ledger) : Prop where
  versions : l.versions <:+ after.versions
  published : l.published <:+ after.published

theorem Before.refl (l : Ledger) : l.Before l :=
  ⟨List.suffix_rfl, List.suffix_rfl⟩

theorem Before.shows {l after : Ledger} (h : l.Before after) {m : ConfigMap} (hm : l.Shows m) :
    after.Shows m := by
  obtain ⟨hnamed, v, hv, heq⟩ := hm
  exact ⟨hnamed, v, h.versions.subset hv, heq⟩

theorem Before.trans {l m n : Ledger} (h : l.Before m) (hm : m.Before n) : l.Before n :=
  ⟨h.versions.trans hm.versions, h.published.trans hm.published⟩

/-- What it takes for a cluster to carry out a call, and what becomes of its ledger. A table is
created only where there is none, and replaced only by who carries the number of its newest
version. -/
def Accepts (l : Ledger) : (call : Call) → call.Reply → Ledger → Prop
  | .create m, stored, after =>
      m.IsStoredAs stored ∧
        if m.isNamed Names.allocations then
          l.versions = [] ∧ after.versions = [stored] ∧ after.published = l.published
        else after.versions = l.versions ∧ after.published = stored :: l.published
  | .replace m, stored, after =>
      m.IsStoredAs stored ∧
        if m.isNamed Names.allocations then
          (∃ old, l.current? = some old ∧
            old.metadata.resourceVersion = m.metadata.resourceVersion) ∧
          after.versions = stored :: l.versions ∧ after.published = l.published
        else after = l
  | .annotate _ _, _, after => after = l
  | .approve _, _, after => after = l

/-- How a cluster may answer a call. A call that fails may have been carried out all the same. -/
def Answers (l : Ledger) (call : Call) : Except ClusterFault call.Reply × Ledger → Prop
  | (.ok reply, after) => l.Accepts call reply after
  | (.error _, after) => after = l ∨ ∃ reply, l.Accepts call reply after

theorem before_of_accepts {l after : Ledger} {call : Call} {reply : call.Reply}
    (h : l.Accepts call reply after) : l.Before after := by
  cases call with
  | create m =>
    obtain ⟨-, h⟩ := h
    split at h
    next =>
      obtain ⟨hnone, -, hp⟩ := h
      exact ⟨hnone ▸ List.nil_suffix, hp ▸ List.suffix_rfl⟩
    next =>
      obtain ⟨hv, hp⟩ := h
      exact ⟨hv ▸ List.suffix_rfl, hp ▸ List.suffix_cons _ _⟩
  | replace m =>
    obtain ⟨-, h⟩ := h
    split at h
    next =>
      obtain ⟨-, hv, hp⟩ := h
      exact ⟨hv ▸ List.suffix_cons _ _, hp ▸ List.suffix_rfl⟩
    next => exact h ▸ Before.refl l
  | annotate node notes => exact (show after = l from h) ▸ Before.refl l
  | approve request => exact (show after = l from h) ▸ Before.refl l

end Ledger

end TunnelFleet
