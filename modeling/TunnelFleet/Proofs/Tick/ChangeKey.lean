import Mathlib.Data.List.Forall2
import TunnelFleet.ChangeKey
import TunnelFleet.Cluster
import TunnelFleet.Proofs.Dict
import TunnelFleet.Proofs.Tick.Run

namespace TunnelFleet

namespace NodeKey

theorem le_of_name_none {a : NodeKey} (h : a.name = none) (b : NodeKey) : a.le b = true := by
  rw [le, h]

theorem le_iff {a b : NodeKey} {x : String} (h : a.name = some x) :
    a.le b = true ↔ ∃ y, b.name = some y ∧ x ≤ y := by
  rw [le, h]
  cases hb : b.name with
  | none => exact ⟨nofun, nofun⟩
  | some y =>
    change (!decide (y < x)) = true ↔ _
    rw [Bool.not_eq_true', decide_eq_false_iff_not, String.not_lt]
    exact ⟨fun hxy => ⟨y, rfl, hxy⟩, fun ⟨_, heq, hxy⟩ => Option.some.inj heq ▸ hxy⟩

theorem le_trans (a b c : NodeKey) (hab : a.le b = true) (hbc : b.le c = true) :
    a.le c = true := by
  cases ha : a.name with
  | none => exact le_of_name_none ha c
  | some x =>
    obtain ⟨y, hb, hxy⟩ := (le_iff ha).mp hab
    obtain ⟨z, hc, hyz⟩ := (le_iff hb).mp hbc
    exact (le_iff ha).mpr ⟨z, hc, String.le_trans hxy hyz⟩

theorem le_total (a b : NodeKey) : (a.le b || b.le a) = true := by
  rw [Bool.or_eq_true]
  cases ha : a.name with
  | none => exact .inl (le_of_name_none ha b)
  | some x =>
    cases hb : b.name with
    | none => exact .inr (le_of_name_none hb a)
    | some y =>
      rw [le_iff ha, le_iff hb]
      exact (String.le_total x y).imp (fun h => ⟨y, hb, h⟩) fun h => ⟨x, ha, h⟩

theorem le_of_name_eq {a b : NodeKey} (h : a.name = b.name) : a.le b = true := by
  cases ha : a.name with
  | none => exact le_of_name_none ha b
  | some x => exact (le_iff ha).mpr ⟨x, h.symm.trans ha, Std.le_refl x⟩

theorem filter_changeKey (nodes : List Node) (name : Option String) :
    (changeKey nodes).filter (·.name == name) =
      (nodes.map ofNode).filter (·.name == name) := by
  have hpairwise : ((nodes.map ofNode).filter (·.name == name)).Pairwise fun a b =>
      a.le b = true := by
    refine List.pairwise_of_forall_mem_list fun a ha b hb => le_of_name_eq ?_
    have ha := (List.mem_filter.mp ha).2
    have hb := (List.mem_filter.mp hb).2
    exact (beq_iff_eq.mp ha).trans (beq_iff_eq.mp hb).symm
  have hsub := List.sublist_mergeSort le_trans le_total hpairwise List.filter_sublist
  have hperm := (List.mergeSort_perm (nodes.map ofNode) le).filter (·.name == name)
  have hfilter := hsub.filter (·.name == name)
  simp only [List.filter_filter, Bool.and_self] at hfilter
  exact (hfilter.eq_of_length hperm.length_eq.symm).symm

theorem eq_of_filter_eq {keys others : List NodeKey}
    (hnames : keys.map (·.name) = others.map (·.name))
    (h : ∀ name, keys.filter (·.name == name) = others.filter (·.name == name)) :
    keys = others := by
  induction keys generalizing others with
  | nil => exact (List.map_eq_nil_iff.mp hnames.symm).symm
  | cons key rest ih =>
    cases others with
    | nil => cases hnames
    | cons other left =>
      obtain ⟨hname, hrest⟩ := List.cons.inj hnames
      have hhead := h other.name
      rw [List.filter_cons_of_pos (by simpa using hname), List.filter_cons_of_pos (by simp)]
        at hhead
      obtain ⟨rfl, -⟩ := List.cons.inj hhead
      refine congrArg (key :: ·) (ih hrest fun name => ?_)
      by_cases hkey : key.name = name
      · have htail := h name
        rw [List.filter_cons_of_pos (by simpa using hkey),
          List.filter_cons_of_pos (by simpa using hkey)] at htail
        exact (List.cons.inj htail).2
      · have htail := h name
        rwa [List.filter_cons_of_neg (by simpa using hkey),
          List.filter_cons_of_neg (by simpa using hkey)] at htail

theorem map_ofNode_of_changeKey {nodes others : List Node}
    (hnames : nodes.map (·.metadata.name) = others.map (·.metadata.name))
    (hkey : changeKey nodes = changeKey others) : nodes.map ofNode = others.map ofNode := by
  refine eq_of_filter_eq ?_ fun name => ?_
  · rw [List.map_map, List.map_map]
    exact hnames
  · rw [← filter_changeKey, ← filter_changeKey, hkey]

theorem note?_eq_lookup (m : Meta) {key : String} (hkey : isNoisy key = false) :
    m.note? key = Dict.lookup key (quietNotes m) := by
  unfold Meta.note? quietNotes
  cases m.annotations with
  | none => rfl
  | some notes =>
    have hwanted : (!isNoisy key) = true := by rw [hkey]; rfl
    exact (Dict.lookup_filter (fun key => !isNoisy key) notes.entries hwanted).symm

end NodeKey

/-- Two nodes between which a tick can see no difference. -/
structure Node.IsAlike (node other : Node) : Prop where
  name : node.metadata.name = other.metadata.name
  uid : node.metadata.uid = other.metadata.uid
  notes : NodeKey.quietNotes node.metadata = NodeKey.quietNotes other.metadata

theorem forall₂_isAlike {nodes others : List Node}
    (hkeys : nodes.map NodeKey.ofNode = others.map NodeKey.ofNode)
    (huids : nodes.map (·.metadata.uid) = others.map (·.metadata.uid)) :
    List.Forall₂ Node.IsAlike nodes others := by
  induction nodes generalizing others with
  | nil =>
    obtain rfl := List.map_eq_nil_iff.mp hkeys.symm
    exact .nil
  | cons node rest ih =>
    cases others with
    | nil => cases hkeys
    | cons other left =>
      obtain ⟨hkey, hkeys⟩ := List.cons.inj hkeys
      obtain ⟨huid, huids⟩ := List.cons.inj huids
      obtain ⟨hname, hnotes, -⟩ := NodeKey.mk.inj hkey
      exact .cons ⟨hname, huid, hnotes⟩ (ih hkeys huids)

namespace Node.IsAlike

variable {node other : Node}

theorem note?_eq (h : node.IsAlike other) {key : String} (hkey : NodeKey.isNoisy key = false) :
    node.metadata.note? key = other.metadata.note? key := by
  rw [NodeKey.note?_eq_lookup _ hkey, NodeKey.note?_eq_lookup _ hkey, h.notes]

theorem decide_eq (h : node.IsAlike other) (clusterPath : String) (nodePath : Option String)
    (canProvision : Bool) :
    node.decide clusterPath nodePath canProvision =
      other.decide clusterPath nodePath canProvision := by
  have hcluster := h.note?_eq (show NodeKey.isNoisy Names.clusterConfigNote = false by decide)
  have hnode := h.note?_eq (show NodeKey.isNoisy Names.nodeConfigNote = false by decide)
  have hkey := h.note?_eq (show NodeKey.isNoisy Names.publicKeyNote = false by decide)
  unfold Node.decide Node.isStale
  rw [hcluster, hnode, hkey]

end Node.IsAlike

namespace Reconcile

theorem visit_eq_of_isAlike {node other : Node} (h : node.IsAlike other) (setting : Setting)
    (progress : Progress) : visit setting progress node = visit setting progress other := by
  unfold visit serve
  rw [h.name, h.uid]
  simp only [h.decide_eq]

theorem visitAll_eq_of_isAlike {nodes others : List Node}
    (h : List.Forall₂ Node.IsAlike nodes others) (setting : Setting) (progress : Progress) :
    visitAll setting nodes progress = visitAll setting others progress := by
  induction h generalizing progress with
  | nil => rfl
  | cons hnode _ ih =>
    rw [visitAll, visitAll, visit_eq_of_isAlike hnode]
    simp only [ih]

end Reconcile

theorem reconcile_eq_of_isAlike {nodes others : List Node}
    (h : List.Forall₂ Node.IsAlike nodes others) (now : Timestamp) (configMaps : List ConfigMap)
    (requests : List SigningRequest) :
    reconcile now ⟨nodes, configMaps, requests⟩ = reconcile now ⟨others, configMaps, requests⟩ := by
  unfold reconcile Reconcile.tableOf
  simp only [h.length_eq, Reconcile.visitAll_eq_of_isAlike h]

/-- A tick over other nodes of the same names and identities makes the same calls and comes to the
same result, whatever the cluster answers, if nothing that counts has changed about the nodes. -/
theorem runs_alike_of_changeKey {nodes others : List Node}
    (hnames : nodes.map (·.metadata.name) = others.map (·.metadata.name))
    (huids : nodes.map (·.metadata.uid) = others.map (·.metadata.uid))
    (hkey : changeKey nodes = changeKey others) (now : Timestamp) (configMaps : List ConfigMap)
    (requests : List SigningRequest) {σ : Type} (answers : Tick.Answers σ) (state : σ) :
    let tick := reconcile now ⟨nodes, configMaps, requests⟩
    let other := reconcile now ⟨others, configMaps, requests⟩
    tick.calls answers state = other.calls answers state ∧
      tick.run answers state = other.run answers state := by
  intro tick other
  have halike := forall₂_isAlike (NodeKey.map_ofNode_of_changeKey hnames hkey) huids
  have heq : tick = other := reconcile_eq_of_isAlike halike now configMaps requests
  rw [heq]
  exact ⟨rfl, rfl⟩

/-- The heartbeat of a node changes nothing. -/
theorem runs_alike_of_heartbeat :
    let node (beat : String) : Node := { metadata := {
      name := some "n"
      uid := some "1"
      annotations := some (Dict.empty.insert (Names.noisyNotes ++ "beat") beat) } }
    let configMap : ConfigMap := { metadata := { name := some Names.clusterConfig } }
    let tick := reconcile { seconds := 0 } ⟨[node "1"], [configMap], []⟩
    let other := reconcile { seconds := 0 } ⟨[node "2"], [configMap], []⟩
    let cluster : Cluster := { nodes := [node "2"], configMaps := [configMap] }
    tick.calls Cluster.answer cluster = other.calls Cluster.answer cluster ∧
      tick.run Cluster.answer cluster = other.run Cluster.answer cluster :=
  runs_alike_of_changeKey rfl rfl (congrArg (List.mergeSort · NodeKey.le) (by decide)) _ _ _ _ _

/-- A node that was made anew has a new identity. The first list gets no request of it granted, the
second one does. -/
theorem runs_differ_of_recreated :
    let node (uid : String) : Node := { metadata := {
      name := some "n"
      uid := some uid
      annotations := some (Dict.empty.insert Names.clusterConfigNote "/kube-pet-config") } }
    let configMap : ConfigMap := { metadata := { name := some Names.clusterConfig } }
    let request : SigningRequest := {
      metadata := { name := some "r", owners := some [⟨"v1", none, none, "Node", "n", "2"⟩] }
      spec := { username := some (Names.serviceAccount "n"), usages := some ["server auth"] } }
    let now : Timestamp := { seconds := 0 }
    let cluster : Cluster := ⟨[node "2"], [configMap], [request]⟩
    [node "1"].map (·.metadata.name) = [node "2"].map (·.metadata.name) ∧
      changeKey [node "1"] = changeKey [node "2"] ∧
      (reconcile now ⟨[node "1"], [configMap], [request]⟩).calls Cluster.answer cluster = [] ∧
      (reconcile now ⟨[node "2"], [configMap], [request]⟩).calls Cluster.answer cluster =
        [.approve (request.approved now)] := by
  intro node configMap request now cluster
  exact ⟨rfl, rfl, by decide +kernel, by decide +kernel⟩

end TunnelFleet
