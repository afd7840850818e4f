import TunnelFleet.Proofs.Allocation.Text
import TunnelFleet.Proofs.Cluster.Applies
import TunnelFleet.Proofs.Tick.Calls

namespace TunnelFleet

theorem Table.text_ne_empty (table : Table) : table.text ≠ "" := by
  obtain ⟨body, hbody⟩ := table.text_eq_header_append
  intro hempty
  have hlength := congrArg String.length (hbody.symm.trans hempty)
  simp [Table.emptyText] at hlength

namespace NodeConfig

theorem path?_eq_of_map {ms others : List ConfigMap} (name : String)
    (h : ms.map (fun m => (ownerName? m, m.metadata.path)) =
      others.map fun m => (ownerName? m, m.metadata.path)) :
    path? ms name = path? others name := by
  have hpath (ms : List ConfigMap) : path? ms name =
      (((ms.map fun m => (ownerName? m, m.metadata.path)).filter
        fun entry => entry.1 = some name).getLast?).map (·.2) := by
    rw [List.filter_map, List.getLast?_map, Option.map_map]
    rfl
  rw [hpath, hpath, h]

theorem path?_append_of_ne {ms : List ConfigMap} {m : ConfigMap} {name : String}
    (h : ownerName? m ≠ some name) : path? (ms ++ [m]) name = path? ms name := by
  rw [path?, List.filter_append, List.filter_cons_of_neg (by simpa using h), List.filter_nil,
    List.append_nil, path?]

theorem path?_append_self {ms : List ConfigMap} {m : ConfigMap} {name : String}
    (h : ownerName? m = some name) : path? (ms ++ [m]) name = some m.metadata.path := by
  rw [path?, List.filter_append, List.filter_cons_of_pos (by simpa using h), List.filter_nil,
    List.getLast?_concat, Option.map_some]

end NodeConfig

/-- What a tick reads once from the config of a cluster. -/
@[ext]
structure Terms where
  clusterPath : String
  networking : Option Networking

namespace Cluster

def config? (c : Cluster) : Option ConfigMap :=
  c.configMaps.find? fun m => m.isNamed Names.clusterConfig

def table? (c : Cluster) : Option ConfigMap :=
  c.configMaps.find? fun m => m.isNamed Names.allocations

/-- Whether a cluster has a table with some text, and settings to hand out addresses by. -/
def canProvision (t : Terms) (c : Cluster) : Bool :=
  t.networking.isSome &&
    (c.table?.bind fun m => m.value? Names.tableKey).any fun text => text != ""

def IsExhausted (t : Terms) (c : Cluster) (key : String) : Prop :=
  ∃ networking m table, t.networking = some networking ∧ c.table? = some m ∧
    m.table = .ok table ∧ table.findKey? key = none ∧
    Allocation.next networking.routers table = .error .exhausted

structure KeepsRequests (c after : Cluster) : Prop where
  requestNames :
    after.requests.filterMap (·.metadata.name) = c.requests.filterMap (·.metadata.name)
  pending : ∀ request ∈ after.requests, request.isPending = true → request ∈ c.requests

structure Keeps (t : Terms) (name : String) (c after : Cluster) : Prop
    extends KeepsRequests c after where
  config : after.config? = c.config?
  paths : ∀ other, other ≠ name →
    NodeConfig.path? after.configMaps other = NodeConfig.path? c.configMaps other
  hasTable : after.table?.isSome = c.table?.isSome
  canProvision : after.canProvision t = c.canProvision t
  exhausted : ∀ key, c.IsExhausted t key → after.table? = c.table?
  nodeNames : after.nodes.filterMap (·.metadata.name) = c.nodes.filterMap (·.metadata.name)

theorem IsExhausted.of_table?_eq {t : Terms} {c after : Cluster} {key : String}
    (h : c.IsExhausted t key) (htable : after.table? = c.table?) : after.IsExhausted t key := by
  obtain ⟨networking, m, table, hn, hm, hrest⟩ := h
  exact ⟨networking, m, table, hn, htable.trans hm, hrest⟩

namespace KeepsRequests

variable {c mid after : Cluster}

theorem of_eq (h : after.requests = c.requests) : KeepsRequests c after :=
  ⟨by rw [h], fun _ hmem _ => h ▸ hmem⟩

theorem trans (h : KeepsRequests c mid) (hm : KeepsRequests mid after) : KeepsRequests c after where
  requestNames := hm.requestNames.trans h.requestNames
  pending := fun request hrequest hpending =>
    h.pending request (hm.pending request hrequest hpending) hpending

theorem keeps {left : List SigningRequest} (h : KeepsRequests c { c with requests := left })
    (t : Terms) (name : String) : Keeps t name c { c with requests := left } :=
  ⟨h, rfl, fun _ _ => rfl, rfl, rfl, fun _ _ => rfl, rfl⟩

end KeepsRequests

namespace Keeps

variable {t : Terms} {name : String} {c mid after : Cluster}

theorem refl (t : Terms) (name : String) (c : Cluster) : Keeps t name c c :=
  (KeepsRequests.of_eq rfl).keeps t name

theorem trans (h : Keeps t name c mid) (hm : Keeps t name mid after) : Keeps t name c after where
  toKeepsRequests := h.toKeepsRequests.trans hm.toKeepsRequests
  config := hm.config.trans h.config
  paths := fun other hother => (hm.paths other hother).trans (h.paths other hother)
  hasTable := hm.hasTable.trans h.hasTable
  canProvision := hm.canProvision.trans h.canProvision
  exhausted := fun key hkey =>
    have htable := h.exhausted key hkey
    (hm.exhausted key (hkey.of_table?_eq htable)).trans htable
  nodeNames := hm.nodeNames.trans h.nodeNames

end Keeps

open Reconcile

variable (t : Terms) (c : Cluster)

theorem keeps_told (name : String) (notes : Dict String) : Keeps t name c (c.told name notes) := by
  refine ⟨.of_eq rfl, rfl, fun _ _ => rfl, rfl, rfl, fun _ _ => rfl, ?_⟩
  exact filterMap_updateFirst fun _ => rfl

theorem not_isPending_approved (request : SigningRequest) (now : Timestamp) :
    ¬ (request.approved now).isPending = true := by
  simp [SigningRequest.isPending, SigningRequest.isAnswered, SigningRequest.approved,
    SigningRequest.approval]

theorem pending_answered {c : Cluster} {request waiting : SigningRequest} {now : Timestamp}
    (hnames : (c.requests.filterMap (·.metadata.name)).Nodup)
    (hname : request.metadata.name.isSome = true)
    (hwaiting : waiting ∈ (c.answered (request.approved now)).requests)
    (hpending : waiting.isPending = true) :
    waiting ∈ c.requests ∧ waiting.metadata.name ≠ request.metadata.name := by
  let wanted (old : SigningRequest) : Bool := old.metadata.name == request.metadata.name
  cases hfound : c.requests.find? wanted with
  | none =>
    have hnone := List.find?_eq_none.mp hfound
    rcases mem_updateFirst hwaiting with hmem | ⟨old, -, rfl⟩
    · exact ⟨hmem, by simpa [wanted] using hnone waiting hmem⟩
    · exact absurd hpending (not_isPending_approved old now)
  | some old =>
    obtain ⟨before, after, hrequests, hbefore, hold⟩ := append_cons_of_find? hfound
    obtain ⟨name, hname⟩ := Option.isSome_iff_exists.mp hname
    have holdName : old.metadata.name = some name := by simpa [wanted, hname] using hold
    have hafter : (c.answered (request.approved now)).requests =
        before ++ old.approved now :: after := by
      simp only [answered, hrequests]
      exact updateFirst_append_cons hbefore hold
    rw [hafter] at hwaiting
    rw [hrequests] at hnames
    rw [hname, hrequests]
    obtain ⟨hne, hne'⟩ := name_ne_of_nodup (fun r : SigningRequest => r.metadata.name) hnames holdName
    rcases List.mem_append.mp hwaiting with hmem | hmem
    · exact ⟨List.mem_append_left _ hmem, hne waiting hmem⟩
    · rcases List.mem_cons.mp hmem with rfl | hmem
      · exact absurd hpending (not_isPending_approved old now)
      · exact ⟨List.mem_append_right _ (List.mem_cons_of_mem _ hmem), hne' waiting hmem⟩

theorem keepsRequests_answered (request : SigningRequest) (now : Timestamp) :
    KeepsRequests c (c.answered (request.approved now)) := by
  refine ⟨?_, fun waiting hwaiting hpending => ?_⟩
  · exact filterMap_updateFirst fun _ => rfl
  · rcases mem_updateFirst hwaiting with hmem | ⟨old, -, rfl⟩
    · exact hmem
    · exact absurd hpending (not_isPending_approved old now)

theorem config?_added {m : ConfigMap} (h : m.isNamed Names.clusterConfig = false) :
    (c.added m).config? = c.config? := by
  rw [config?, added, List.find?_append, List.find?_cons_of_neg (by simp [h]), List.find?_nil,
    Option.or_none, config?]

theorem table?_added {m : ConfigMap} (h : m.isNamed Names.allocations = false) :
    (c.added m).table? = c.table? := by
  rw [table?, added, List.find?_append, List.find?_cons_of_neg (by simp [h]), List.find?_nil,
    Option.or_none, table?]

theorem keeps_added {name : String} {m : ConfigMap} (howner : NodeConfig.ownerName? m = some name)
    (hconfig : m.isNamed Names.clusterConfig = false)
    (htable : m.isNamed Names.allocations = false) : Keeps t name c (c.added m) := by
  have hconfigs := c.config?_added hconfig
  have htables := c.table?_added htable
  refine ⟨.of_eq rfl, hconfigs, fun other hother => ?_, ?_, ?_, fun _ _ => htables, rfl⟩
  · exact NodeConfig.path?_append_of_ne fun heq => hother (Option.some.inj (heq.symm.trans howner))
  · rw [htables]
  · rw [canProvision, canProvision, htables]

theorem table?_replaced {c : Cluster} {m stored : ConfigMap} (hm : c.table? = some m)
    (hstored : stored.isNamed Names.allocations = true) :
    (c.replaced Names.allocations stored).table? = some stored := by
  obtain ⟨before, after, hmaps, hbefore, hnamed⟩ := append_cons_of_find? hm
  have hnone : before.find? (fun m => m.isNamed Names.allocations) = none :=
    List.find?_eq_none.mpr fun x hx => by simp [hbefore x hx]
  rw [table?, replaced, hmaps, updateFirst_append_cons hbefore hnamed, List.find?_append, hnone,
    Option.none_or]
  exact List.find?_cons_of_pos hstored

theorem keeps_replaced (name : String) {m : ConfigMap} {networking : Networking} {table : Table}
    {free : Allocation} (row : Allocation) (version : Nat) (hcan : c.canProvision t = true)
    (hm : c.table? = some m) (hnetworking : t.networking = some networking)
    (htable : m.table = .ok table)
    (hfree : Allocation.next networking.routers table = .ok free) :
    Keeps t name c
      (c.replaced Names.allocations ((withTable m (table.push row)).withVersion version)) := by
  let stored := (withTable m (table.push row)).withVersion version
  obtain ⟨before, after, hmaps, hbefore, hnamed⟩ := append_cons_of_find? hm
  have hafter : (c.replaced Names.allocations stored).configMaps = before ++ stored :: after := by
    rw [replaced, hmaps, updateFirst_append_cons hbefore hnamed]
  have hconfig : m.isNamed Names.clusterConfig = false := by
    have hname : m.metadata.name = some Names.allocations := by simpa [ConfigMap.isNamed] using hnamed
    rw [ConfigMap.isNamed, hname]
    decide
  have hconfig' : stored.isNamed Names.clusterConfig = false := hconfig
  have hstored : (c.replaced Names.allocations stored).table? = some stored :=
    table?_replaced hm hnamed
  refine ⟨.of_eq rfl, ?_, fun other _ => ?_, ?_, ?_, fun key hkey => ?_, rfl⟩
  · rw [config?, config?, hafter, hmaps, List.find?_append, List.find?_append,
      List.find?_cons_of_neg (by simp [hconfig']), List.find?_cons_of_neg (by simp [hconfig])]
  · refine NodeConfig.path?_eq_of_map other ?_
    rw [hafter, hmaps, List.map_append, List.map_append, List.map_cons, List.map_cons]
    rfl
  · rw [hstored, hm]
    rfl
  · have htext : stored.value? Names.tableKey = some (table.push row).text :=
      value?_withTable m (table.push row)
    rw [hcan, canProvision, hnetworking, hstored, Option.bind_some, htext]
    simpa using (table.push row).text_ne_empty
  · obtain ⟨found, old, rows, hfound, hold, hrows, -, hnone⟩ := hkey
    obtain rfl := Option.some.inj (hfound.symm.trans hnetworking)
    obtain rfl := Option.some.inj (hold.symm.trans hm)
    obtain rfl := Except.ok.inj (hrows.symm.trans htable)
    cases hnone.symm.trans hfree

end Cluster

end TunnelFleet
