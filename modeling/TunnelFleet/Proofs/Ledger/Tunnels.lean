import TunnelFleet.Proofs.Ledger.NodeConfigs
import TunnelFleet.Proofs.Ledger.Routes

namespace TunnelFleet

/-- A view whose table, if it shows one, has the purpose of the version that it shows. -/
structure Snapshot.IsMarkedView (vetting : Vetting) (l : Ledger) (snapshot : Snapshot) : Prop
    extends snapshot.IsView vetting l where
  purpose : ∀ m, (snapshot.configMaps.find? fun m => m.isNamed Names.allocations) = some m →
    ∃ v ∈ l.versions, m.data = v.data ∧
      m.metadata.resourceVersion = v.metadata.resourceVersion ∧
      m.isForTable = v.isForTable

theorem Snapshot.isMarkedView_seen {vetting : Vetting} {l after : Ledger} (h : l.Before after)
    {name key : String} (hkey : vetting.key key) (hname : vetting.name name)
    (hrouter : vetting.router "R") : (seen l name key).IsMarkedView vetting after where
  toIsView := isView_seen h hkey hname hrouter
  purpose := fun m hm => ⟨m, h.versions.subset (mem_versions_of_seen hm), rfl, rfl, rfl⟩

def Call.KeepsPurpose : Call → Prop
  | .create m => m.isNamed Names.allocations = true → m.isForTable = true
  | .replace m => m.isForTable = true
  | .annotate _ _ => True
  | .approve _ => True

theorem ConfigMap.IsStoredAs.isForTable_eq {sent stored : ConfigMap} (h : sent.IsStoredAs stored) :
    stored.isForTable = sent.isForTable := by
  rw [isForTable, h.note?_eq]
  rfl

open Reconcile in
theorem heeds_keepsPurpose {now : Timestamp} {snapshot : Snapshot} {l : Ledger}
    (hfor : ∀ m, (snapshot.configMaps.find? fun m => m.isNamed Names.allocations) = some m →
      m.isForTable = true) :
    (reconcile now snapshot).Heeds Tick.ledgerMoves (fun _ call => call.KeepsPurpose)
      (fun _ _ => True) l := by
  have hempty : emptyTable.isForTable = true := by decide
  refine (heeds_reconcile (fun _ progress => ∀ m, progress.table = some m → m.isForTable = true)
    (fun _ _ => True) fun cluster networking _ _ => ⟨?_, ?_⟩).imp fun _ _ _ => trivial
  · refine heeds_tableOf (fun m hm n hn => ?_) (fun _ n hn => nomatch hn) fun _ _ => ?_
    · exact Option.some.inj hn ▸ hfor m hm
    · refine ⟨fun _ => hempty, fun created after hmoves m hm => ?_⟩
      have hstored : emptyTable.IsStoredAs created := Tick.brings_of_ledgerMoves hmoves
      exact Option.some.inj hm ▸ hstored.isForTable_eq.trans hempty
  · refine rules_of_table (fun _ => id) (fun _ _ _ => trivial) ?_ ?_ (fun _ _ => trivial)
      (fun _ => trivial)
    · intro l m table row hm _
      refine ⟨hm, fun stored after hmoves => ⟨trivial, ?_⟩⟩
      have hstored : (withTable m (table.push row)).IsStoredAs stored :=
        Tick.brings_of_ledgerMoves hmoves
      exact hstored.isForTable_eq.trans hm
    · intro l row name uid networking router _ hnamed
      rw [NodeConfig.isNamed_render (by decide)] at hnamed
      cases hnamed

namespace Ledger

/-- Every version of the table bears its purpose and has a text. -/
def IsMarked (l : Ledger) : Prop :=
  ∀ m ∈ l.versions, m.isForTable = true ∧ (m.value? Names.tableKey).isSome = true

theorem Change.hasText {vetting : Vetting} {l after : Ledger} (h : l.Change vetting after)
    (hold : ∀ m ∈ l.versions, (m.value? Names.tableKey).isSome = true) :
    ∀ m ∈ after.versions, (m.value? Names.tableKey).isSome = true := by
  intro m hm
  cases h with
  | none => exact hold m hm
  | bootstrap _ hstored hversions _ =>
    rw [hversions, List.mem_singleton] at hm
    rw [hm, hstored.value?_eq]
    decide
  | extend hl _ _ hstored hversions _ =>
    rw [hversions, ← hl] at hm
    rcases List.mem_cons.mp hm with rfl | hm
    · rw [hstored.value?_eq, Reconcile.value?_withTable]
      rfl
    · exact hold m hm
  | publish _ _ hversions _ => exact hold m (hversions ▸ hm)

theorem isForTable_of_accepts {l after : Ledger} {call : Call} {reply : call.Reply}
    (hkeeps : call.KeepsPurpose) (h : l.Accepts call reply after)
    (hold : ∀ m ∈ l.versions, m.isForTable = true) :
    ∀ m ∈ after.versions, m.isForTable = true := by
  intro m hm
  cases call with
  | create sent =>
    obtain ⟨hstored, h⟩ := h
    split at h
    next hnamed =>
      obtain ⟨-, hversions, -⟩ := h
      obtain rfl : m = reply := List.mem_singleton.mp (hversions ▸ hm)
      exact hstored.isForTable_eq.trans (hkeeps hnamed)
    next => exact hold m (h.1 ▸ hm)
  | replace sent =>
    obtain ⟨hstored, h⟩ := h
    split at h
    next =>
      obtain ⟨-, hversions, -⟩ := h
      rw [hversions] at hm
      rcases List.mem_cons.mp hm with rfl | hm
      · exact hstored.isForTable_eq.trans hkeeps
      · exact hold m hm
    next => exact hold m (h ▸ hm)
  | annotate node notes => exact hold m ((show after = l from h) ▸ hm)
  | approve request => exact hold m ((show after = l from h) ▸ hm)

theorem IsMarked.accepts {vetting : Vetting} {l after : Ledger} {call : Call} {reply : call.Reply}
    (hmarked : l.IsMarked) (hmay : Reconcile.May vetting l call) (hkeeps : call.KeepsPurpose)
    (h : l.Accepts call reply after) : after.IsMarked := by
  have hfor := isForTable_of_accepts hkeeps h fun m hm => (hmarked m hm).1
  have htext := (change_of_accepts hmay h).hasText fun m hm => (hmarked m hm).2
  exact fun m hm => ⟨hfor m hm, htext m hm⟩

def publishing (l : Ledger) (created : List ConfigMap) : Ledger :=
  { l with published := created }

theorem Change.publishing {vetting : Vetting} {l after : Ledger} (h : l.Change vetting after)
    {created old : List ConfigMap} (hl : l.published = created ++ old) :
    ∃ more, after.published = more ++ old ∧
      (l.publishing created).Change vetting (after.publishing more) := by
  cases h with
  | none => exact ⟨created, hl, .none⟩
  | bootstrap hempty hstored hversions hpublished =>
    exact ⟨created, hpublished.trans hl, .bootstrap hempty hstored hversions rfl⟩
  | extend hversions ht hnew hstored hafter hpublished =>
    exact ⟨created, hpublished.trans hl, .extend hversions ht hnew hstored hafter rfl⟩
  | @publish name uid row networking router stored _ hrow hstored hversions hpublished =>
    refine ⟨stored :: created, by rw [hpublished, hl, List.cons_append], ?_⟩
    refine .publish ?_ hstored hversions rfl
    cases hrow with
    | found hm ht hfound => exact .found hm ht hfound
    | stored hm ht hnew hnext htext => exact .stored hm ht hnew hnext htext

/-- The config maps of a cluster at some time: the newest version of the table is among them, and no
other bears its purpose. -/
structure AreCurrent (l : Ledger) (configMaps : List ConfigMap) : Prop where
  table : ∀ m, l.current? = some m → m ∈ configMaps
  only : ∀ m ∈ configMaps, m.isForTable = true → l.current? = some m

theorem AreCurrent.ofConfigMaps_eq {l : Ledger} {configMaps : List ConfigMap} {table : Table}
    (h : l.AreCurrent configMaps) (hmarked : l.IsMarked) (ht : l.table = .ok table)
    (routerKey : String) : PeerSnapshot.ofConfigMaps configMaps routerKey =
      .ok (l.current?.map fun m =>
        ⟨m.tableRef, (table.ofRouter routerKey).map Allocation.peerBlock⟩) := by
  cases hcurrent : l.current? with
  | none =>
    have hnone : configMaps.find? ConfigMap.isForTable = none :=
      List.find?_eq_none.mpr fun m hm hfor => by
        cases hcurrent.symm.trans (h.only m hm hfor)
    have htable : PeerSnapshot.table? configMaps = none := by
      rw [PeerSnapshot.table?_eq, hnone]
      rfl
    rw [PeerSnapshot.ofConfigMaps, htable]
    rfl
  | some m =>
    obtain ⟨hfor, htext⟩ := hmarked m (List.mem_of_head? hcurrent)
    have honly : ∀ n ∈ configMaps, n.isForTable = true → n = m := fun n hn hmarked =>
      Option.some.inj ((h.only n hn hmarked).symm.trans hcurrent)
    have hfind := PeerSnapshot.find?_isForTable_of_only (h.table m hcurrent) hfor honly
    obtain ⟨text, htext⟩ := Option.isSome_iff_exists.mp htext
    have hread : Table.ofText text = .ok table := by
      rw [Ledger.table, hcurrent] at ht
      dsimp only at ht
      rwa [ConfigMap.table, htext] at ht
    exact PeerSnapshot.ofConfigMaps_eq hfind htext hread routerKey

end Ledger

/-- Both ends of a tunnel, that of a node with its config map and that of its router: of all peers of
all routers only one, a peer of this router, is made from a row with the node's key, and it has the
node's addresses. -/
structure Table.Connects (t : Table) (m : ConfigMap) (row : Allocation) : Prop where
  isFor : NodeConfig.IsFor row m
  peer : (t.ofRouter row.routerKey).filter (fun r => r.nodeKey == row.nodeKey) = [row]
  alone : ∀ routerKey, routerKey ≠ row.routerKey →
    ∀ r ∈ t.ofRouter routerKey, r.nodeKey ≠ row.nodeKey
  block : ∃ key address subnet, NodeConfig.key? m = some key ∧
    NodeConfig.address? m = some address ∧ NodeConfig.subnet? m = some subnet ∧
    row.peerBlock = "[Peer] # " ++ row.nodeName ++ "\nPublicKey = " ++ key ++ "\nAllowedIPs = " ++
      address ++ " # node\nAllowedIPs = " ++ subnet ++ " # pods\n"

theorem Allocation.peerBlock_of_isFor {row : Allocation} {m : ConfigMap}
    (h : NodeConfig.IsFor row m) : ∃ key address subnet, NodeConfig.key? m = some key ∧
      NodeConfig.address? m = some address ∧ NodeConfig.subnet? m = some subnet ∧
      row.peerBlock = "[Peer] # " ++ row.nodeName ++ "\nPublicKey = " ++ key ++
        "\nAllowedIPs = " ++ address ++ " # node\nAllowedIPs = " ++ subnet ++ " # pods\n" := by
  refine ⟨_, _, _, h.key, h.address, h.subnet, ?_⟩
  apply String.toList_inj.mp
  unfold peerBlock
  simp only [String.toList_append, List.append_assoc, String.reduceToList, List.cons_append,
    List.nil_append]

theorem Table.IsSound.split_of_findKey? {t : Table} (h : t.IsSound) {row : Allocation}
    (hrow : t.findKey? row.nodeKey = some row) :
    ∃ before after, t.rows = before ++ row :: after ∧
      (∀ r ∈ before, r.nodeKey ≠ row.nodeKey) ∧ ∀ r ∈ after, r.nodeKey ≠ row.nodeKey := by
  obtain ⟨-, before, after, hrows, hbefore⟩ := List.find?_eq_some_iff_append.mp hrow
  have hkeys := h.keys
  rw [hrows] at hkeys
  have hafter := (List.pairwise_cons.mp (List.pairwise_append.mp hkeys).2.1).1
  exact ⟨before, after, hrows, fun r hr => by simpa using hbefore r hr,
    fun r hr heq => hafter r hr heq.symm⟩

theorem Table.IsSound.connects {t : Table} (h : t.IsSound) {m : ConfigMap} {row : Allocation}
    (hrow : t.findKey? row.nodeKey = some row) (hfor : NodeConfig.IsFor row m) :
    t.Connects m row := by
  obtain ⟨before, after, hrows, hbefore, hafter⟩ := h.split_of_findKey? hrow
  have hnone {rows : List Allocation} (hne : ∀ r ∈ rows, r.nodeKey ≠ row.nodeKey) :
      (rows.filter fun r => r.routerKey == row.routerKey).filter
        (fun r => r.nodeKey == row.nodeKey) = [] :=
    List.filter_eq_nil_iff.mpr fun r hr => by simpa using hne r (List.mem_filter.mp hr).1
  refine ⟨hfor, ?_, fun routerKey hne r hr heq => ?_, Allocation.peerBlock_of_isFor hfor⟩
  · rw [ofRouter, hrows, List.filter_append, List.filter_append, hnone hbefore, List.nil_append,
      List.filter_cons_of_pos (by simp), List.filter_cons_of_pos (by simp), hnone hafter]
  · obtain ⟨hmem, hrouter⟩ := List.mem_filter.mp hr
    rw [hrows] at hmem
    rcases List.mem_append.mp hmem with hmem | hmem
    · exact hbefore r hmem heq
    · rcases List.mem_cons.mp hmem with rfl | hmem
      · exact hne (eq_of_beq hrouter).symm
      · exact hafter r hmem heq

namespace Ledger

variable {former : List ConfigMap} {l after : Ledger}

theorem IsMarked.obeys {vetting : Vetting} (hmarked : l.IsMarked) {snapshot : Snapshot}
    (hview : snapshot.IsMarkedView vetting l) (now : Timestamp) :
    (reconcile now snapshot).Obeys
      (fun l call => Reconcile.May vetting l call ∧ call.KeepsPurpose) (fun _ _ => True) l := by
  refine Tick.obeys_of_heeds ((heeds_reconcile_of_view hview.toIsView).and
    (heeds_keepsPurpose fun m hm => ?_))
  obtain ⟨version, hversion, -, -, hpurpose⟩ := hview.purpose m hm
  exact hpurpose.trans (hmarked version hversion).1

/-- The table can be relied on and bears its purpose, and what was published behind some former config
maps agrees with it. -/
structure IsTended (former : List ConfigMap) (l : Ledger) : Prop where
  sound : l.IsSound
  marked : l.IsMarked
  agree : ∃ created, l.published = created ++ former ∧ (l.publishing created).NodesAgree

theorem isTended_of_empty (h : l.versions = []) : l.IsTended l.published where
  sound := IsInitial.isSound (.inl h)
  marked := by simp [IsMarked, h]
  agree := ⟨[], rfl, fun _ _ => List.forall_mem_nil _⟩

theorem IsTended.accepts {call : Call} {reply : call.Reply} (h : l.IsTended former)
    (hmay : Reconcile.May .unix l call) (hkeeps : call.KeepsPurpose)
    (haccepts : l.Accepts call reply after) : after.IsTended former := by
  obtain ⟨created, hpublished, hagree⟩ := h.agree
  have hchange := change_of_accepts hmay haccepts
  obtain ⟨more, hmore, hcreated⟩ := hchange.publishing hpublished
  have hsame : (l.publishing created).IsSound := ⟨h.sound.sound, h.sound.grows⟩
  exact ⟨h.sound.change hchange, h.marked.accepts hmay hkeeps haccepts, more, hmore,
    hagree.change hsame hcreated⟩

end Ledger

namespace Traffic

/-- Routers and nodes agree at every point of every run that begins without a table. What the peers
of a router are read from is the committed table, and every config map that a node was given meanwhile
has its counterpart there. -/
theorem both_ends_agree {start t : Traffic} (hticks : start.ticks = [])
    (hnone : start.ledger.versions = [])
    (h : ReachOver (fun l s => s.IsMarkedView .unix l) start t) {configMaps : List ConfigMap}
    (hcurrent : t.ledger.AreCurrent configMaps) :
    ∃ table, t.ledger.table = .ok table ∧
      (∀ routerKey, PeerSnapshot.ofConfigMaps configMaps routerKey =
        .ok (t.ledger.current?.map fun m =>
          ⟨m.tableRef, (table.ofRouter routerKey).map Allocation.peerBlock⟩)) ∧
      ∃ created, t.ledger.published = created ++ start.ledger.published ∧
        ∀ m ∈ created, ∃ row, table.Connects m row := by
  have hlasting : ∀ call, Tick.Lasting fun l => Reconcile.May .unix l call ∧ call.KeepsPurpose :=
    fun call l after hl hcall => ⟨Reconcile.May.lasting call l after hl hcall.1, hcall.2⟩
  obtain ⟨⟨hsound, hmarked, created, hpublished, hagree⟩, -⟩ := h.kept hlasting
    (fun l now snapshot htended hview => htended.marked.obeys hview now)
    (fun l call reply after htended hmay => htended.accepts hmay.1 hmay.2) hticks
    (Ledger.isTended_of_empty hnone)
  obtain ⟨table, ht, htable⟩ := hsound.table
  refine ⟨table, ht, hcurrent.ofConfigMaps_eq hmarked ht, created, hpublished, fun m hm => ?_⟩
  obtain ⟨row, hrow, hfor⟩ := hagree table ht m hm
  exact ⟨row, htable.connects hrow hfor⟩

theorem both_ends_agree_small :
    Traffic.idle.ticks = [] ∧ Traffic.idle.ledger.versions = [] ∧
      ReachOver (fun l s => s.IsMarkedView .unix l) idle rivals ∧
      rivals.ledger.published.map NodeConfig.address? =
        [some "10.1.0.2/32", some "10.1.0.1/32"] ∧
      ∃ configMaps, rivals.ledger.AreCurrent configMaps ∧
        ∃ table, rivals.ledger.table = .ok table ∧
          (∀ routerKey, PeerSnapshot.ofConfigMaps configMaps routerKey =
            .ok (rivals.ledger.current?.map fun m =>
              ⟨m.tableRef, (table.ofRouter routerKey).map Allocation.peerBlock⟩)) ∧
          ∃ created, rivals.ledger.published = created ++ idle.ledger.published ∧
            ∀ m ∈ created, ∃ row, table.Connects m row := by
  have hreach : ReachOver (fun l s => s.IsMarkedView .unix l) idle rivals := by
    have hrouter : Text.IsUnix "R" := Text.isUnix_of_not_mem (by decide)
    refine reachOver_rivals (Snapshot.isMarkedView_seen (.refl _) ?_ ?_ hrouter)
      fun l after h => Snapshot.isMarkedView_seen h ?_ ?_ hrouter
    all_goals exact Text.isUnix_of_not_mem (by decide)
  have hcurrent : rivals.ledger.AreCurrent
      (Snapshot.smallCluster :: rivals.ledger.current?.toList) := by
    refine ⟨fun m hm => by simp [hm], fun m hm hfor => ?_⟩
    rcases List.mem_cons.mp hm with rfl | hm
    · exact absurd hfor (by decide)
    · simpa using hm
  exact ⟨rfl, rfl, hreach, rivals_apart.2, _, hcurrent, both_ends_agree rfl rfl hreach hcurrent⟩

end Traffic

end TunnelFleet
