import TunnelFleet.Proofs.Allocation.New
import TunnelFleet.Proofs.Dict
import TunnelFleet.Proofs.Tick.Obeys
import TunnelFleet.Proofs.Tick.Walk

namespace TunnelFleet

/-- A row that some version of the table grants to its key: the first of that key, or one that was
stored because the key had none. -/
inductive Ledger.Grants (vetting : Vetting) (l : Ledger) : Allocation → Prop
  | found {m : ConfigMap} {table : Table} {row : Allocation} (hm : m ∈ l.versions)
      (ht : m.table = .ok table) (hrow : table.findKey? row.nodeKey = some row) :
      Grants vetting l row
  | stored {m next : ConfigMap} {table : Table} {row : Allocation} (hm : m ∈ l.versions)
      (ht : m.table = .ok table) (hnew : row.IsNew vetting table) (hnext : next ∈ l.versions)
      (htext : next.value? Names.tableKey = some (table.push row).text) : Grants vetting l row

/-- What a tick may ask of a cluster with a given ledger. -/
inductive Reconcile.May (vetting : Vetting) (l : Ledger) : Call → Prop
  | bootstrap : May vetting l (.create emptyTable)
  | extend {m : ConfigMap} {table : Table} {row : Allocation} (hm : l.Shows m)
      (ht : m.table = .ok table) (hnew : row.IsNew vetting table) :
      May vetting l (.replace (withTable m (table.push row)))
  | publish {name uid : String} {row : Allocation} {networking : Networking} {router : Router}
      (hrow : l.Grants vetting row) :
      May vetting l (.create (NodeConfig.render name uid row networking router))
  | annotate (node : String) (notes : Dict String) : May vetting l (.annotate node notes)
  | approve (request : SigningRequest) : May vetting l (.approve request)

/-- A snapshot shows some version of the table, or none, and only vetted texts. -/
structure Snapshot.IsView (vetting : Vetting) (l : Ledger) (snapshot : Snapshot) : Prop where
  table : ∀ m, (snapshot.configMaps.find? fun m => m.isNamed Names.allocations) = some m →
    l.Shows m
  key : ∀ node ∈ snapshot.nodes, ∀ key, node.metadata.note? Names.publicKeyNote = some key →
    vetting.key key
  name : ∀ node ∈ snapshot.nodes, ∀ name, node.metadata.name = some name → vetting.name name
  router : ∀ cluster networking,
    (snapshot.configMaps.find? fun m => m.isNamed Names.clusterConfig) = some cluster →
    Reconcile.networking? cluster = .ok (some networking) →
    ∀ router ∈ networking.routers, vetting.router router.publicKey

theorem Ledger.Grants.lasting (vetting : Vetting) (row : Allocation) :
    Tick.Lasting fun l => l.Grants vetting row := by
  intro l after hl h
  have hsub := hl.versions.subset
  cases h with
  | found hm ht hrow => exact .found (hsub hm) ht hrow
  | stored hm ht hnew hnext htext => exact .stored (hsub hm) ht hnew (hsub hnext) htext

namespace Reconcile

variable {vetting : Vetting}

theorem May.lasting (call : Call) : Tick.Lasting fun l => May vetting l call := by
  intro l after hl h
  cases h with
  | bootstrap => exact .bootstrap
  | extend hm ht hnew => exact .extend (hl.shows hm) ht hnew
  | publish hrow => exact .publish (Ledger.Grants.lasting vetting _ l after hl hrow)
  | annotate node notes => exact .annotate node notes
  | approve request => exact .approve request

def Knows (l : Ledger) (progress : Progress) : Prop :=
  ∀ m, progress.table = some m → l.Shows m

theorem value?_withTable (m : ConfigMap) (table : Table) :
    (withTable m table).value? Names.tableKey = some table.text := by
  simp [withTable, ConfigMap.value?]

theorem isNamed_withTable (m : ConfigMap) (table : Table) (name : String) :
    (withTable m table).isNamed name = m.isNamed name :=
  rfl

theorem IsAddition.isNew {setting : Setting} {nodes : List Node} {m : ConfigMap} {table : Table}
    {row : Allocation} (h : IsAddition setting nodes m table row)
    (hkey : ∀ node ∈ nodes, ∀ key, node.metadata.note? Names.publicKeyNote = some key →
      vetting.key key)
    (hname : ∀ node ∈ nodes, ∀ name, node.metadata.name = some name → vetting.name name)
    (hrouter : ∀ networking, setting.networking = some networking →
      ∀ router ∈ networking.routers, vetting.router router.publicKey) : row.IsNew vetting table := by
  obtain ⟨networking, found, hnetworking, hfound, hrow⟩ := h.free
  obtain ⟨node, hnode, hnamed, hnote⟩ := h.node
  obtain ⟨router, hmem, hrouterKey⟩ := (Allocation.of_next hfound).1.routerKey
  have hrowKey : row.routerKey = router.publicKey := by
    rw [hrow]
    exact hrouterKey.symm
  exact ⟨h.unknown, ⟨_, found, hfound, hrow⟩, hkey node hnode _ hnote, hname node hnode _ hnamed,
    hrowKey ▸ hrouter networking hnetworking router hmem⟩

theorem stored_of_addition {l after : Ledger} {m stored : ConfigMap} {table : Table}
    {row : Allocation} (hm : l.Shows m) (ht : m.table = .ok table)
    (hnew : row.IsNew vetting table)
    (hmoves : Tick.ledgerMoves l (.replace (withTable m (table.push row))) stored after) :
    after.Grants vetting row ∧ after.Shows stored := by
  obtain ⟨before, hbefore, hstored, h⟩ := hmoves
  rw [isNamed_withTable, hm.1, if_pos rfl] at h
  obtain ⟨-, hversions, -⟩ := h
  obtain ⟨version, hversion, hdata, -⟩ := hm.2
  have hmem : stored ∈ after.versions := hversions ▸ List.mem_cons_self
  have hlast : version ∈ after.versions :=
    hversions ▸ List.mem_cons_of_mem _ (hbefore.versions.subset hversion)
  have htext := (hstored.value?_eq _).trans (value?_withTable m (table.push row))
  have hversionTable := (ConfigMap.table_eq_of_data hdata).symm.trans ht
  exact ⟨.stored hlast hversionTable hnew hmem htext, Ledger.shows_of_mem hmem⟩

theorem ledgerRules {setting : Setting} {nodes : List Node}
    (hkey : ∀ node ∈ nodes, ∀ key, node.metadata.note? Names.publicKeyNote = some key →
      vetting.key key)
    (hname : ∀ node ∈ nodes, ∀ name, node.metadata.name = some name → vetting.name name)
    (hrouter : ∀ networking, setting.networking = some networking →
      ∀ router ∈ networking.routers, vetting.router router.publicKey) :
    Rules Tick.ledgerMoves (May vetting) Knows (fun l row => l.Grants vetting row) setting nodes := by
  refine rules_of_table (fun hmoves hm => (Tick.before_of_ledgerMoves hmoves).shows hm) ?_ ?_
    (fun _ _ _ _ hrow => .publish hrow) (fun _ _ => .annotate _ _) (fun _ => .approve _)
  · intro l m table row hm ht hrow
    obtain ⟨version, hversion, hdata, -⟩ := hm.2
    exact .found hversion ((ConfigMap.table_eq_of_data hdata).symm.trans ht) hrow
  · intro l m table row hm hrow
    have hnew := hrow.isNew hkey hname hrouter
    exact ⟨.extend hm hrow.read hnew, fun stored after => stored_of_addition hm hrow.read hnew⟩

end Reconcile

open Reconcile in
/-- A tick over a view of the cluster asks only for what it may, whatever happens meanwhile. -/
theorem heeds_reconcile_of_view {vetting : Vetting} {now : Timestamp} {snapshot : Snapshot}
    {l : Ledger} (hview : snapshot.IsView vetting l) :
    (reconcile now snapshot).Heeds Tick.ledgerMoves (May vetting) (fun _ _ => True) l := by
  refine (heeds_reconcile Knows (fun l row => l.Grants vetting row)
    fun cluster networking hcluster hnetworking => ⟨?_, ?_⟩).imp fun _ _ _ => trivial
  · refine heeds_tableOf (fun m hm n hn => ?_) (fun _ n hn => nomatch hn) fun _ _ => ?_
    · exact Option.some.inj hn ▸ hview.table m hm
    · refine ⟨.bootstrap, fun created after ⟨before, _, _, h⟩ n hn => ?_⟩
      have hnamed : emptyTable.isNamed Names.allocations = true := by decide
      rw [if_pos hnamed] at h
      obtain ⟨-, hversions, -⟩ := h
      obtain rfl := Option.some.inj hn
      exact Ledger.shows_of_mem (hversions ▸ List.mem_singleton_self created)
  · refine ledgerRules hview.key hview.name fun settings hsettings => ?_
    obtain rfl : networking = some settings := hsettings
    exact hview.router cluster settings hcluster hnetworking

end TunnelFleet
