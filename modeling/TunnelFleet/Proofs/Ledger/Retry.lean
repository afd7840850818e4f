import Mathlib.Logic.Function.Iterate
import TunnelFleet.Proofs.Ledger.NodeConfigs
import TunnelFleet.Proofs.Ledger.Server

namespace TunnelFleet

/-- A text becomes another when it is written and read back often enough. -/
def Text.WearsTo (s key : String) : Prop :=
  ∃ n, Text.unix^[n] s = key

theorem Text.WearsTo.of_unix {s key : String} (h : WearsTo (Text.unix s) key) : WearsTo s key := by
  obtain ⟨n, hn⟩ := h
  exact ⟨n + 1, hn⟩

namespace Table

/-- What a table has become by rows that were stored behind its own one by one, each for a key
without a row. -/
inductive Since (t : Table) : Table → Prop
  | refl : Since t t
  | next {later : Table} {row : Allocation} (h : Since t later)
      (hrow : later.findKey? row.nodeKey = none) : Since t (later.push row).unix

/-- The first row of a row's key has its addresses, and no key ahead of it wears to the same. -/
def Leads (t : Table) (row : Allocation) : Prop :=
  ∃ ahead found rest, t.rows = ahead ++ found :: rest ∧ found.nodeKey = row.nodeKey ∧
    found.nodeIP = row.nodeIP ∧ found.podNet = row.podNet ∧
    ∀ earlier ∈ ahead, ¬ Text.WearsTo earlier.nodeKey row.nodeKey

variable {t later : Table} {row : Allocation} {key : String}

theorem rows_push_unix (t : Table) (row : Allocation) :
    (t.push row).unix.rows = t.unix.rows ++ [row.unix] := by
  rw [unix, push, List.map_append, List.map_singleton, unix]

theorem Leads.findKey? (h : t.Leads row) : ∃ found, t.findKey? row.nodeKey = some found ∧
    found.nodeIP = row.nodeIP ∧ found.podNet = row.podNet := by
  obtain ⟨ahead, found, rest, hrows, hkey, hip, hpods, hahead⟩ := h
  refine ⟨found, ?_, hip, hpods⟩
  have hnone : ahead.find? (fun r => r.nodeKey == row.nodeKey) = none := by
    refine List.find?_eq_none.mpr fun earlier hearlier heq => ?_
    exact hahead earlier hearlier ⟨0, eq_of_beq heq⟩
  rw [Table.findKey?, hrows, List.find?_append, hnone, Option.none_or]
  exact List.find?_cons_of_pos (beq_iff_eq.mpr hkey)

theorem Leads.push_unix (h : t.Leads row) (hkey : Text.IsUnix row.nodeKey)
    (hreadable : row.IsReadable) (other : Allocation) : (t.push other).unix.Leads row := by
  obtain ⟨ahead, found, rest, hrows, hfound, hip, hpods, hahead⟩ := h
  refine ⟨ahead.map Allocation.unix, found.unix, rest.map Allocation.unix ++ [other.unix], ?_, ?_,
    ?_, ?_, ?_⟩
  · rw [rows_push_unix, unix, hrows, List.map_append, List.map_cons, List.append_assoc,
      List.cons_append]
  · show Text.unix found.nodeKey = _
    rw [hfound, Text.unix_eq_self hkey]
  · show Text.unix found.nodeIP = _
    rw [hip, Text.unix_eq_self hreadable.isUnix_nodeIP]
  · show Text.unix found.podNet = _
    rw [hpods, Text.unix_eq_self hreadable.isUnix_podNet]
  · exact List.forall_mem_map.mpr fun earlier hearlier hworn => hahead earlier hearlier hworn.of_unix

theorem Since.leads (hsince : t.Since later) (h : t.Leads row) (hkey : Text.IsUnix row.nodeKey)
    (hreadable : row.IsReadable) : later.Leads row := by
  induction hsince with
  | refl => exact h
  | next _ _ ih => exact ih.push_unix hkey hreadable _

theorem Since.exists_row (hsince : t.Since later) (h : ∃ r ∈ t.rows, r.nodeKey = key)
    (hkey : Text.IsUnix key) : ∃ r ∈ later.rows, r.nodeKey = key := by
  induction hsince with
  | refl => exact h
  | @next later row _ _ ih =>
    obtain ⟨r, hr, hrkey⟩ := ih
    refine ⟨r.unix, ?_, ?_⟩
    · rw [rows_push_unix]
      exact List.mem_append_left _ (List.mem_map_of_mem hr)
    · show Text.unix r.nodeKey = key
      rw [hrkey, Text.unix_eq_self hkey]

/-- A row that was just stored leads, unless a key ahead of it wears to its own. -/
theorem leads_push_unix (hkey : Text.IsUnix row.nodeKey) (hreadable : row.IsReadable)
    (hahead : ∀ earlier ∈ t.unix.rows, ¬ Text.WearsTo earlier.nodeKey row.nodeKey) :
    (t.push row).unix.Leads row :=
  ⟨t.unix.rows, row.unix, [], rows_push_unix t row, Text.unix_eq_self hkey,
    Text.unix_eq_self hreadable.isUnix_nodeIP, Text.unix_eq_self hreadable.isUnix_podNet, hahead⟩

theorem findKey?_push_unix_eq_none (hkey : ¬ Text.IsUnix row.nodeKey)
    (hahead : ∀ earlier ∈ t.unix.rows, ¬ Text.WearsTo earlier.nodeKey row.nodeKey) :
    (t.push row).unix.findKey? row.nodeKey = none := by
  refine List.find?_eq_none.mpr fun r hr heq => ?_
  have hrkey : r.nodeKey = row.nodeKey := eq_of_beq heq
  rw [rows_push_unix] at hr
  rcases List.mem_append.mp hr with hr | hr
  · exact hahead r hr ⟨0, hrkey⟩
  · obtain rfl := List.mem_singleton.mp hr
    exact hkey (Text.unix_eq_self_iff.mp hrkey)

end Table

namespace Reconcile

/-- A row that a lookup brings up in what has become of a table, or that was stored because none
did. -/
def Serves (t : Table) (row : Allocation) : Prop :=
  ∃ later, t.Since later ∧ ∀ found, later.findKey? row.nodeKey = some found → found = row

/-- What a tick over some nodes may ask when its table has come of another one. -/
inductive Follows (t : Table) (nodes : List Node) : Call → Prop
  | extend {setting : Setting} {m : ConfigMap} {later : Table} {row : Allocation}
      (hsince : t.Since later) (hrow : IsAddition setting nodes m later row) :
      Follows t nodes (.replace (withTable m (later.push row)))
  | publish {name uid : String} {row : Allocation} {networking : Networking} {router : Router}
      (hrow : Serves t row) :
      Follows t nodes (.create (NodeConfig.render name uid row networking router))
  | annotate (node : String) (notes : Dict String) : Follows t nodes (.annotate node notes)
  | approve (request : SigningRequest) : Follows t nodes (.approve request)

def bringing : Tick.Moves Unit :=
  fun _ call reply _ => call.Brings reply

theorem rules_of_since {t : Table} {setting : Setting} {nodes : List Node} :
    Rules bringing (fun _ => Follows t nodes) (fun _ progress => ∀ m, progress.table = some m →
      ∃ later, m.table = .ok later ∧ t.Since later) (fun _ => Serves t) setting nodes := by
  refine rules_of_table (fun _ h => h) ?_ ?_ (fun _ _ _ _ hrow => .publish hrow)
    (fun _ _ => .annotate _ _) (fun _ => .approve _)
  · rintro _ m table row ⟨later, hlater, hsince⟩ ht hrow
    obtain rfl := Except.ok.inj (hlater.symm.trans ht)
    exact ⟨later, hsince, fun found hfound => Option.some.inj (hfound.symm.trans hrow)⟩
  · rintro _ m table row ⟨later, hlater, hsince⟩ hrow
    obtain rfl := Except.ok.inj (hlater.symm.trans hrow.read)
    have hnone := hrow.unknown
    refine ⟨.extend hsince hrow, fun stored _ hstored => ⟨⟨later, hsince, ?_⟩,
      (later.push row).unix, ?_, hsince.next hnone⟩⟩
    · intro found hfound
      cases hnone.symm.trans hfound
    · exact (ConfigMap.IsStoredAs.table_eq hstored).trans (table_withTable m _)

def AddsFor (nodes : List Node) : Call → Prop
  | .replace sent => ∃ setting m table row, IsAddition setting nodes m table row ∧
      sent = withTable m (table.push row)
  | _ => True

theorem rules_of_addition (setting : Setting) (nodes : List Node) :
    Rules (fun _ _ _ _ => True) (fun (_ : Unit) => AddsFor nodes)
      (fun _ progress => ∀ m, progress.table = some m → True) (fun _ _ => True) setting nodes := by
  refine rules_of_table (fun _ _ => trivial) (fun _ _ _ => trivial) ?_ (fun _ _ _ _ _ => trivial)
    (fun _ _ => trivial) (fun _ => trivial)
  intro _ m table row _ hrow
  exact ⟨⟨setting, m, table, row, hrow, rfl⟩, fun _ _ _ => ⟨trivial, trivial⟩⟩

variable {σ : Type} {answers : Tick.Answers σ} {state : σ} {now : Timestamp} {snapshot : Snapshot}
  {call : Call}

theorem follows_of_mem_calls {m : ConfigMap} {t later : Table}
    (hanswers : ∀ state call reply after, answers state call = (.ok reply, after) →
      call.Brings reply)
    (hm : snapshot.tableMap? = some m) (hlater : m.table = .ok later) (hsince : t.Since later)
    (hcall : call ∈ (reconcile now snapshot).calls answers state) :
    Follows t snapshot.nodes call := by
  refine of_mem_calls bringing _ _ _ hanswers (fun _ _ _ _ => ⟨?_, rules_of_since⟩) hcall
  refine heeds_tableOf (fun n hn k hk => ?_) (fun hnone => ?_) fun hnone _ => ?_
  · obtain rfl := Option.some.inj (hm.symm.trans hn)
    exact Option.some.inj hk ▸ ⟨later, hlater, hsince⟩
  · cases hnone.symm.trans hm
  · cases hnone.symm.trans hm

theorem addsFor_of_mem_calls (hcall : call ∈ (reconcile now snapshot).calls answers state) :
    AddsFor snapshot.nodes call := by
  refine of_mem_calls (fun _ _ _ _ => True) _ _ _ (fun _ _ _ _ _ => trivial)
    (fun _ _ _ _ => ⟨?_, rules_of_addition _ _⟩) hcall
  exact heeds_tableOf (fun _ _ _ _ => trivial) (fun _ _ _ => trivial) fun _ _ =>
    ⟨trivial, fun _ _ _ _ _ => trivial⟩

theorem allocation_of_unknown {m : ConfigMap} {t : Table} {key : String} {networking : Networking}
    {free : Allocation} (ht : m.table = .ok t) (hkey : t.findKey? key = none)
    (hfree : Allocation.next networking.routers t = .ok free) (nodeName : String) (report : Report) :
    ∃ next, allocation networking nodeName key m report =
      .ask (.replace (withTable m (t.push { free with nodeKey := key, nodeName := nodeName })))
        next := by
  unfold ConfigMap.table at ht
  rw [allocation, ht]
  simp only [Tick.ofExcept, bind, Tick.bind, hkey, hfree]
  exact ⟨_, rfl⟩

end Reconcile

/-- A call stores no row for a key, but only for other keys that some nodes publish. -/
def Call.AddsNo (key : String) (nodes : List Node) : Call → Prop
  | .replace m => ∃ (table : Table) (row : Allocation),
      m.value? Names.tableKey = some (table.push row).text ∧ row.nodeKey ≠ key ∧
      ∃ node ∈ nodes, node.metadata.note? Names.publicKeyNote = some row.nodeKey
  | _ => True

def Call.PublishesOnly (row : Allocation) : Call → Prop
  | .create m => NodeConfig.key? m = some row.nodeKey →
      NodeConfig.address? m = some (row.nodeIP ++ "/32") ∧ NodeConfig.subnet? m = some row.podNet
  | _ => True

namespace Table

/-- What holds of every call that ticks make of a cluster in which a table shows, or what has become
of it since. -/
def Later (t : Table) (P : List Node → Call → Prop) : Prop :=
  ∀ (σ : Type) (answers : Tick.Answers σ) (state : σ) (now : Timestamp) (snapshot : Snapshot)
    (m : ConfigMap) (later : Table),
    (∀ state call reply after, answers state call = (.ok reply, after) → call.Brings reply) →
    snapshot.tableMap? = some m → m.table = .ok later → t.Since later →
    ∀ call ∈ (reconcile now snapshot).calls answers state, P snapshot.nodes call

variable {t : Table} {row : Allocation} {key : String}

theorem later_of_follows {P : List Node → Call → Prop}
    (h : ∀ nodes call, Reconcile.Follows t nodes call → P nodes call) : t.Later P :=
  fun _ _ _ _ _ _ _ hanswers hm hlater hsince call hcall =>
    h _ call (Reconcile.follows_of_mem_calls hanswers hm hlater hsince hcall)

theorem later_addsNo (h : ∃ r ∈ t.rows, r.nodeKey = key) (hkey : Text.IsUnix key) :
    t.Later (Call.AddsNo key) := by
  refine later_of_follows fun nodes call hcall => ?_
  cases hcall with
  | @extend setting m later row hsince hrow =>
    obtain ⟨node, hnode, -, hnote⟩ := hrow.node
    refine ⟨later, row, Reconcile.value?_withTable m _, fun heq => ?_, node, hnode, hnote⟩
    obtain ⟨r, hr, hrkey⟩ := hsince.exists_row h hkey
    exact nodeKey_ne_of_findKey?_none hrow.unknown r hr (hrkey.trans heq.symm)
  | publish => trivial
  | annotate => trivial
  | approve => trivial

theorem later_publishesOnly (h : t.Leads row) (hkey : Text.IsUnix row.nodeKey)
    (hreadable : row.IsReadable) : t.Later fun _ => Call.PublishesOnly row := by
  refine later_of_follows fun nodes call hcall => ?_
  cases hcall with
  | extend => trivial
  | @publish name uid served networking router hserved =>
    intro hsame
    obtain ⟨later, hsince, hfound⟩ := hserved
    have hservedKey : served.nodeKey = row.nodeKey :=
      Option.some.inj (NodeConfig.key?_render.symm.trans hsame)
    obtain ⟨found, hlookup, hip, hpods⟩ := (hsince.leads h hkey hreadable).findKey?
    obtain rfl := hfound found (hservedKey ▸ hlookup)
    have hfoundReadable : found.IsReadable := by
      rw [Allocation.IsReadable, hip, hpods]
      exact hreadable
    rw [← hip, ← hpods]
    exact ⟨NodeConfig.address?_render hfoundReadable, NodeConfig.subnet?_render hfoundReadable⟩
  | annotate => trivial
  | approve => trivial

end Table

open Reconcile in
/-- Once a row is stored for a key that writing does not change, no later tick stores another one for
it, and what they publish for the key are the addresses of the row, unless a key ahead of it wears to
the same. A key with a carriage return directly before a line feed is not found again, and every
attempt to serve it asks for one more row. -/
theorem retries_find_unix_keys {σ : Type} {answers : Tick.Answers σ} {state : σ} {now : Timestamp}
    {snapshot : Snapshot} {sent stored : ConfigMap}
    (hsent : .replace sent ∈ (reconcile now snapshot).calls answers state)
    (hstored : sent.IsStoredAs stored) :
    ∃ (table : Table) (row : Allocation),
      (∃ node ∈ snapshot.nodes, node.metadata.name = some row.nodeName ∧
        node.metadata.note? Names.publicKeyNote = some row.nodeKey) ∧
      row.nodeKey ≠ "" ∧ table.findKey? row.nodeKey = none ∧
      stored.table = .ok (table.push row).unix ∧
      (Text.IsUnix row.nodeKey → (table.push row).unix.Later (Call.AddsNo row.nodeKey)) ∧
      ((∀ earlier ∈ table.unix.rows, ¬ Text.WearsTo earlier.nodeKey row.nodeKey) →
        (Text.IsUnix row.nodeKey → (table.push row).unix.Later fun _ => Call.PublishesOnly row) ∧
        (¬ Text.IsUnix row.nodeKey → ∀ networking nodeName report free,
          Allocation.next networking.routers (table.push row).unix = .ok free →
          ∃ next, allocation networking nodeName row.nodeKey stored report =
            .ask (.replace (withTable stored ((table.push row).unix.push
              { free with nodeKey := row.nodeKey, nodeName := nodeName }))) next)) := by
  obtain ⟨setting, m, table, row, hrow, rfl⟩ := addsFor_of_mem_calls hsent
  have htable : stored.table = .ok (table.push row).unix :=
    hstored.table_eq.trans (table_withTable m _)
  obtain ⟨networking, found, -, hfound, hsame⟩ := hrow.free
  have hreadable : row.IsReadable := by
    rw [hsame]
    exact (Allocation.of_next hfound).1.isReadable
  refine ⟨table, row, hrow.node, hrow.keyed, hrow.unknown, htable, fun hkey => ?_, fun hahead =>
    ⟨fun hkey => ?_, fun hkey => ?_⟩⟩
  · refine Table.later_addsNo ⟨row.unix, ?_, Text.unix_eq_self hkey⟩ hkey
    rw [Table.rows_push_unix]
    exact List.mem_append_right _ (List.mem_singleton_self _)
  · exact Table.later_publishesOnly (Table.leads_push_unix hkey hreadable hahead) hkey hreadable
  · intro networking nodeName report free hfree
    have hnone := Table.findKey?_push_unix_eq_none hkey hahead
    exact allocation_of_unknown htable hnone hfree nodeName report

theorem retries_find_unix_keys_small :
    let answers : Tick.Answers Unit := fun _ call => match call with
      | .create m => (.ok m, ())
      | .replace m => (.ok m, ())
      | .annotate _ _ => (.ok (), ())
      | .approve _ => (.ok (), ())
    let row : Allocation := ⟨"K", "R", "n", "10.1.0.1", "10.2.1.0/24"⟩
    let sent := Reconcile.withTable Reconcile.emptyTable ⟨[row]⟩
    .replace sent ∈ (reconcile { seconds := 0 } (.small "n" "K")).calls answers () ∧
      sent.IsStoredAs sent ∧ Table.Later ⟨[row]⟩ (Call.AddsNo "K") := by
  intro answers row sent
  have hsent : .replace sent ∈ (reconcile { seconds := 0 } (.small "n" "K")).calls answers () := by
    decide +kernel
  have hstored : sent.IsStoredAs sent := ⟨rfl, rfl, rfl⟩
  obtain ⟨table, added, ⟨node, hnode, -, hnote⟩, -, -, htable, hlater, -⟩ :=
    retries_find_unix_keys hsent hstored
  obtain rfl := List.mem_singleton.mp hnode
  have hkey : "K" = added.nodeKey := by simpa [Meta.note?] using hnote
  have hrow : (table.push added).unix = ⟨[row]⟩ := by
    have hsame : (⟨[row]⟩ : Table).unix = ⟨[row]⟩ := by decide +kernel
    rw [Reconcile.table_withTable, hsame] at htable
    exact (Except.ok.inj htable).symm
  rw [← hkey, hrow] at hlater
  exact ⟨hsent, hstored, hlater (Text.isUnix_of_not_mem (by decide))⟩

/-- A tick that fails after it had a row stored for a broken key. The next one adds another row. -/
theorem second_row_of_broken_key :
    let cluster : Cluster := {
      nodes := (Snapshot.small "n" "K\r\nL").nodes
      configMaps := [Snapshot.smallCluster, Reconcile.emptyTable] }
    let now : Timestamp := { seconds := 0 }
    let aborted := (reconcile now cluster.snapshot).run (Tick.refusing .create Cluster.answer)
      (some 0, cluster)
    let retried := (reconcile now aborted.2.2.snapshot).run Cluster.answer aborted.2.2
    let keys (c : Cluster) : Option (List String) :=
      c.snapshot.tableMap?.bind fun m => m.table.toOption.map fun table => table.rows.map (·.nodeKey)
    aborted.1.isOk = false ∧ keys aborted.2.2 = some ["K\nL"] ∧
      retried.1.toOption.map Report.allocationsWritten = some 1 ∧
      keys retried.2 = some ["K\nL", "K\nL"] := by
  decide +kernel

end TunnelFleet
