import TunnelFleet.Proofs.Ledger.Server
import TunnelFleet.Proofs.Tick.Decision
import TunnelFleet.Proofs.Tick.NodeConfig
import TunnelFleet.Proofs.Tick.Provision

namespace TunnelFleet

namespace NodeConfig

/-- A config map for one node, which belongs to the node of this name and identity. -/
structure IsOwnedBy (name uid : String) (m : ConfigMap) : Prop where
  purpose : m.metadata.note? Names.purposeNote = some Names.purposeNode
  owner : ∃ owner, m.metadata.owners = some [owner] ∧ owner.kind = "Node" ∧ owner.name = name ∧
    owner.uid = uid

variable {name uid path : String} {m : ConfigMap} {configMaps : List ConfigMap}

theorem ownerName?_eq_some_iff : ownerName? m = some name ↔ ∃ uid, IsOwnedBy name uid m := by
  unfold ownerName?
  constructor
  · intro h
    split at h
    next hpurpose =>
      split at h
      next owner hsole =>
        split at h
        next hkind =>
          exact ⟨owner.uid, hpurpose, owner, Meta.soleOwner?_eq_some_iff.mp hsole, hkind,
            Option.some.inj h, rfl⟩
        next => cases h
      next => cases h
    next => cases h
  · rintro ⟨uid, hpurpose, owner, howners, hkind, rfl, -⟩
    rw [if_pos hpurpose, Meta.soleOwner?_eq_some_iff.mpr howners]
    exact if_pos hkind

theorem isOwnedBy_render (name uid : String) (row : Allocation) (networking : Networking)
    (router : Router) : IsOwnedBy name uid (render name uid row networking router) := by
  obtain ⟨_, hpurpose, -⟩ :=
    ownerName?_eq_some_iff.mp (@ownerName?_render name uid row networking router)
  exact ⟨hpurpose, _, rfl, rfl, rfl, rfl⟩

theorem exists_of_path? (h : path? configMaps name = some path) :
    ∃ before m after owner, configMaps = before ++ m :: after ∧ IsOwnedBy name owner m ∧
      (∀ n ∈ after, ∀ other, ¬ IsOwnedBy name other n) ∧ m.metadata.path = path := by
  obtain ⟨m, hlast, hpath⟩ := Option.map_eq_some_iff.mp h
  rw [List.getLast?_eq_head?_reverse, ← List.filter_reverse, List.head?_filter,
    List.find?_eq_some_iff_append] at hlast
  obtain ⟨hm, after, before, hsplit, hafter⟩ := hlast
  obtain ⟨owner, howner⟩ := ownerName?_eq_some_iff.mp (of_decide_eq_true hm)
  refine ⟨before.reverse, m, after.reverse, owner, ?_, howner, fun n hn other hother => ?_, hpath⟩
  · rw [← List.reverse_inj, hsplit]
    simp
  · have hnot := hafter n (List.mem_reverse.mp hn)
    simp [ownerName?_eq_some_iff.mpr ⟨other, hother⟩] at hnot

theorem not_isOwnedBy_of_path?_eq_none (h : path? configMaps name = none) :
    ∀ m ∈ configMaps, ∀ owner, ¬ IsOwnedBy name owner m := by
  intro m hm owner howner
  have hnone := List.getLast?_eq_none_iff.mp (Option.map_eq_none_iff.mp h)
  have hnot := List.filter_eq_nil_iff.mp hnone m hm
  simp [ownerName?_eq_some_iff.mpr ⟨owner, howner⟩] at hnot

/-- The config map that a node is led to: the last one for a node of its name, whichever node of
that name it was made for, or one made for this very node if there is none. -/
inductive IsGuide (configMaps created : List ConfigMap) (name uid : String) (m : ConfigMap) : Prop
  | found {before after : List ConfigMap} {owner : String}
      (hsplit : configMaps = before ++ m :: after) (hm : IsOwnedBy name owner m)
      (hlast : ∀ n ∈ after, ∀ other, ¬ IsOwnedBy name other n)
  | created (hnone : ∀ n ∈ configMaps, ∀ other, ¬ IsOwnedBy name other n)
      (hmade : m ∈ created) (hm : IsOwnedBy name uid m)

namespace IsGuide

variable {created more : List ConfigMap}

theorem append (h : IsGuide configMaps created name uid m) :
    IsGuide configMaps (created ++ more) name uid m := by
  cases h with
  | found hsplit hm hlast => exact .found hsplit hm hlast
  | created hnone hmade hm => exact .created hnone (List.mem_append_left _ hmade) hm

theorem isOwnedBy (h : IsGuide configMaps created name uid m)
    (hown : ∀ n ∈ configMaps, ∀ owner, IsOwnedBy name owner n → owner = uid) :
    IsOwnedBy name uid m := by
  cases h with
  | found hsplit hm hlast =>
    have hmem : m ∈ configMaps := hsplit ▸ List.mem_append_right _ List.mem_cons_self
    exact hown m hmem _ hm ▸ hm
  | created hnone hmade hm => exact hm

end IsGuide

end NodeConfig

namespace Call

def created : (call : Call) → call.Reply → List ConfigMap
  | .create _, stored => [stored]
  | _, _ => []

def KeepsOwners : (call : Call) → call.Reply → Prop
  | .create m, stored => stored.metadata.annotations = m.metadata.annotations ∧
      stored.metadata.owners = m.metadata.owners
  | _, _ => True

/-- A node that is told where its config is, is told the path of its guide. -/
def LeadsToGuide (snapshot : Snapshot) (created : List ConfigMap) : Call → Prop
  | .annotate name notes => ∀ path, notes.get? Names.nodeConfigNote = some path →
      ∃ node ∈ snapshot.nodes, ∃ uid m, node.metadata.name = some name ∧
        node.metadata.uid = some uid ∧
        NodeConfig.IsGuide snapshot.configMaps created name uid m ∧ m.metadata.path = path
  | _ => True

theorem LeadsToGuide.append {snapshot : Snapshot} {created : List ConfigMap} {call : Call}
    (h : call.LeadsToGuide snapshot created) (more : List ConfigMap) :
    call.LeadsToGuide snapshot (created ++ more) := by
  cases call with
  | annotate name notes =>
    intro path hpath
    obtain ⟨node, hnode, uid, m, hname, huid, hguide, hm⟩ := h path hpath
    exact ⟨node, hnode, uid, m, hname, huid, hguide.append, hm⟩
  | _ => trivial

end Call

theorem NodeConfig.IsOwnedBy.of_keepsOwners {name uid : String} {m stored : ConfigMap}
    (h : IsOwnedBy name uid m) (hkeeps : (Call.create m).KeepsOwners stored) :
    IsOwnedBy name uid stored := by
  obtain ⟨hnotes, howners⟩ := hkeeps
  obtain ⟨hpurpose, howner⟩ := h
  rw [Meta.note?, ← hnotes] at hpurpose
  rw [← howners] at howner
  exact ⟨hpurpose, howner⟩

namespace Tick

variable {σ α : Type} {answers : Answers σ}

def created (answers : Answers σ) : Tick α → σ → List ConfigMap
  | .done _, _ => []
  | .fail _, _ => []
  | .ask call next, state =>
      match answers state call with
      | (.ok reply, after) => call.created reply ++ (next reply).created answers after
      | (.error _, _) => []

/-- A cluster that creates config maps with the annotations and the owners they are sent with. -/
def KeepsOwners (answers : Answers σ) : Prop :=
  ∀ state call reply after, answers state call = (.ok reply, after) → call.KeepsOwners reply

def createdMoves : Moves (List ConfigMap) :=
  fun created call reply after => after = created ++ call.created reply ∧ call.KeepsOwners reply

theorem Heeds.of_createdMoves {may : List ConfigMap → Call → Prop}
    {post : List ConfigMap → α → Prop} {tick : Tick α} {made : List ConfigMap} {state : σ}
    {call : Call} (hkeeps : KeepsOwners answers)
    (hmore : ∀ made call, may made call → ∀ more, may (made ++ more) call)
    (h : tick.Heeds createdMoves may post made) (hcall : call ∈ tick.calls answers state) :
    may (made ++ tick.created answers state) call := by
  induction tick generalizing made state with
  | done value => cases hcall
  | fail failure => cases hcall
  | ask asked next ih =>
    rw [calls] at hcall
    rcases List.mem_cons.mp hcall with rfl | hcall
    · exact hmore _ _ h.1 _
    · rcases hanswer : answers state asked with ⟨fault | reply, after⟩
      · rw [hanswer] at hcall
        cases hcall
      · rw [hanswer] at hcall
        have hrest := h.2 reply _ ⟨rfl, hkeeps state asked reply after hanswer⟩
        have hlast := ih reply hrest hcall
        rwa [created, hanswer, ← List.append_assoc]

theorem keepsOwners_answer : KeepsOwners Cluster.answer := by
  intro c call reply after h
  cases call with
  | create m =>
    rw [Cluster.answer, Cluster.create] at h
    dsimp only at h
    split at h
    next => cases h
    next =>
      obtain ⟨hreply, -⟩ := Prod.mk.inj h
      obtain rfl := Except.ok.inj hreply
      exact ⟨rfl, rfl⟩
  | _ => trivial

end Tick

namespace Reconcile

variable {setting : Setting} {snapshot : Snapshot} {node : Node} {name uid : String}
  {made : List ConfigMap}

open Tick (createdMoves)

theorem leads_publish (hnode : node ∈ snapshot.nodes) (hname : node.metadata.name = some name)
    (huid : node.metadata.uid = some uid)
    (hnone : ∀ m ∈ snapshot.configMaps, ∀ owner, ¬ NodeConfig.IsOwnedBy name owner m)
    (networking : Networking) (row : Allocation) (router : Router) (m : ConfigMap)
    (report : Report) :
    (publish setting networking name uid row router m report).Heeds createdMoves
      (Call.LeadsToGuide snapshot) (fun _ _ => True) made := by
  refine ⟨trivial, ?_⟩
  rintro stored _ ⟨rfl, hkeeps⟩
  refine ⟨fun path hpath => ?_, fun _ _ _ => trivial⟩
  rw [get?_pathNotes_node] at hpath
  have howned := (NodeConfig.isOwnedBy_render name uid row networking router).of_keepsOwners hkeeps
  refine ⟨node, hnode, uid, stored, hname, huid, ?_, Option.some.inj hpath⟩
  exact .created hnone (List.mem_append_right _ (List.mem_singleton.mpr rfl)) howned

theorem Provisions.leads {networking : Networking} {key : String} {m : ConfigMap}
    {report : Report} {tick : Tick Progress}
    (h : Provisions setting networking name uid key m report tick) (hnode : node ∈ snapshot.nodes)
    (hname : node.metadata.name = some name) (huid : node.metadata.uid = some uid)
    (hnone : ∀ m ∈ snapshot.configMaps, ∀ owner, ¬ NodeConfig.IsOwnedBy name owner m) :
    tick.Heeds createdMoves (Call.LeadsToGuide snapshot) (fun _ _ => True) made := by
  cases h with
  | unread => trivial
  | unknown => trivial
  | reused => exact leads_publish hnode hname huid hnone ..
  | unsearched => trivial
  | exhausted => trivial
  | allocated => exact ⟨trivial, fun _ _ _ => leads_publish hnode hname huid hnone ..⟩

theorem leads_serve (hmaps : setting.configMaps = snapshot.configMaps)
    (hnode : node ∈ snapshot.nodes) (hname : node.metadata.name = some name)
    (huid : node.metadata.uid = some uid) (progress : Progress) :
    (serve setting node name uid progress).Heeds createdMoves (Call.LeadsToGuide snapshot)
      (fun _ _ => True) made := by
  unfold serve
  rw [hmaps]
  split
  next notes hdecide =>
    obtain ⟨-, rfl⟩ := Node.of_decide_announce hdecide
    refine ⟨fun path hpath => ?_, fun _ _ _ => trivial⟩
    rw [get?_pathNotes_node] at hpath
    obtain ⟨before, m, after, owner, hsplit, hm, hlast, hpath⟩ :=
      NodeConfig.exists_of_path? hpath
    exact ⟨node, hnode, uid, m, hname, huid, .found hsplit hm hlast, hpath⟩
  next key hdecide =>
    obtain ⟨-, hpath, -⟩ := Node.of_decide_provision hdecide
    have hnone := NodeConfig.not_isOwnedBy_of_path?_eq_none hpath
    split
    next networking m _ _ =>
      exact (provisions setting networking name uid key m _).leads hnode hname huid hnone
    next => trivial
  next => trivial

theorem leads_approveAll (now : Timestamp) (requests : List SigningRequest) (report : Report) :
    (approveAll now requests report).Heeds createdMoves (Call.LeadsToGuide snapshot)
      (fun _ _ => True) made := by
  induction requests generalizing report made with
  | nil => trivial
  | cons request rest ih => exact ⟨trivial, fun _ _ _ => ih _⟩

theorem leads_visit (hmaps : setting.configMaps = snapshot.configMaps)
    (hnode : node ∈ snapshot.nodes) (progress : Progress) :
    (visit setting progress node).Heeds createdMoves (Call.LeadsToGuide snapshot)
      (fun _ _ => True) made := by
  unfold visit
  split
  next name uid hname huid =>
    refine (leads_serve hmaps hnode hname huid progress).bind fun _ served _ => ?_
    exact (leads_approveAll _ _ _).bind fun _ _ _ => trivial
  next => trivial

theorem leads_visitAll (hmaps : setting.configMaps = snapshot.configMaps) {nodes : List Node}
    (hnodes : nodes ⊆ snapshot.nodes) (progress : Progress) :
    (visitAll setting nodes progress).Heeds createdMoves (Call.LeadsToGuide snapshot)
      (fun _ _ => True) made := by
  induction nodes generalizing progress made with
  | nil => trivial
  | cons node rest ih =>
    obtain ⟨hnode, hrest⟩ := List.cons_subset.mp hnodes
    exact (leads_visit hmaps hnode progress).bind fun _ visited _ => ih hrest visited

theorem leads_tableOf (networking : Option Networking) (report : Report) :
    (tableOf snapshot networking report).Heeds createdMoves (Call.LeadsToGuide snapshot)
      (fun _ _ => True) made := by
  unfold tableOf
  split
  · trivial
  · split
    · exact ⟨trivial, fun _ _ _ => trivial⟩
    · trivial

end Reconcile

open Reconcile in
theorem leads_reconcile (now : Timestamp) (snapshot : Snapshot) :
    (reconcile now snapshot).Heeds Tick.createdMoves (Call.LeadsToGuide snapshot)
      (fun _ _ => True) [] := by
  cases hcluster : snapshot.configMaps.find? fun m => m.isNamed Names.clusterConfig with
  | none =>
    rw [reconcile_of_no_cluster now hcluster]
    trivial
  | some cluster =>
    rw [reconcile_of_cluster now hcluster]
    refine (Tick.heeds_ofExcept (fun _ _ => True) fun _ _ => trivial).bind fun _ networking _ => ?_
    refine (leads_tableOf networking _).bind fun _ progress _ => ?_
    exact (leads_visitAll rfl (List.Subset.refl _) progress).bind fun _ _ _ => trivial

/-- A path that a tick tells a node of leads to a config map for a node of that name, which is made
for this very node unless the snapshot holds one for a former node of the name. -/
theorem paths_lead_to_guides {σ : Type} {answers : Tick.Answers σ}
    (hkeeps : Tick.KeepsOwners answers) (state : σ) (now : Timestamp) {snapshot : Snapshot}
    {name path : String} {notes : Dict String}
    (hcall : .annotate name notes ∈ (reconcile now snapshot).calls answers state)
    (hpath : notes.get? Names.nodeConfigNote = some path) :
    ∃ node ∈ snapshot.nodes, ∃ uid m, node.metadata.name = some name ∧
      node.metadata.uid = some uid ∧ m.metadata.path = path ∧
      NodeConfig.IsGuide snapshot.configMaps ((reconcile now snapshot).created answers state)
        name uid m ∧
      ((∀ n ∈ snapshot.configMaps, ∀ owner, NodeConfig.IsOwnedBy name owner n → owner = uid) →
        NodeConfig.IsOwnedBy name uid m) := by
  have hleads := (leads_reconcile now snapshot).of_createdMoves hkeeps
    (fun _ _ h => h.append) hcall
  obtain ⟨node, hnode, uid, m, hname, huid, hguide, hm⟩ := hleads path hpath
  exact ⟨node, hnode, uid, m, hname, huid, hm, hguide, hguide.isOwnedBy⟩

namespace Cluster

def house (owner : String) : ConfigMap where
  metadata := {
    name := some (Names.nodeConfig "n")
    nameSpace := some Names.fleetNamespace
    annotations := some (Dict.empty.insert Names.purposeNote Names.purposeNode)
    owners := some [⟨"v1", none, none, "Node", "n", owner⟩] }

theorem isOwnedBy_house (owner : String) : NodeConfig.IsOwnedBy "n" owner (house owner) :=
  ⟨rfl, _, rfl, rfl, rfl, rfl⟩

def housing (uid owner : String) : Cluster where
  nodes := [{ metadata := { name := some "n", uid := some uid } }]
  configMaps := [{ metadata := {
    name := some Names.clusterConfig
    nameSpace := some Names.fleetNamespace } }, house owner]

theorem isOwnedBy_housing (uid : String) {owner other name : String} {m : ConfigMap}
    (hm : m ∈ (housing uid owner).configMaps) (h : NodeConfig.IsOwnedBy name other m) :
    name = "n" ∧ other = owner := by
  obtain ⟨-, own, howners, -, hname, huid⟩ := h
  rcases List.mem_cons.mp hm with rfl | hm
  · cases howners
  · obtain rfl := List.mem_singleton.mp hm
    obtain ⟨rfl, -⟩ := List.cons.inj (Option.some.inj howners)
    exact ⟨hname.symm, huid.symm⟩

def halfHoused : Cluster where
  nodes := (housing "2" "2").nodes ++ (Snapshot.small "m" "K").nodes
  configMaps := Snapshot.smallCluster :: (housing "2" "2").configMaps

theorem isOwnedBy_halfHoused {owner name : String} {m : ConfigMap}
    (hm : m ∈ halfHoused.configMaps) (h : NodeConfig.IsOwnedBy name owner m) :
    name = "n" ∧ owner = "2" := by
  rcases List.mem_cons.mp hm with rfl | hm
  · obtain ⟨-, own, howners, -⟩ := h
    cases howners
  · exact isOwnedBy_housing "2" hm h

end Cluster

theorem paths_lead_to_guides_halfHoused :
    let c := Cluster.halfHoused
    let tick := reconcile { seconds := 0 } c.snapshot
    let notes (path : String) := pathNotes "kube-pets/kube-pet-config" (some path)
    .annotate "n" (notes "kube-pets/node-n") ∈ tick.calls Cluster.answer c ∧
      .annotate "m" (notes "kube-pets/node-m") ∈ tick.calls Cluster.answer c ∧
      (∃ m ∈ c.configMaps, m.metadata.path = "kube-pets/node-n" ∧
        NodeConfig.IsOwnedBy "n" "2" m) ∧
      ∃ m ∈ tick.created Cluster.answer c, m.metadata.path = "kube-pets/node-m" ∧
        NodeConfig.IsOwnedBy "m" "1" m := by
  intro c tick notes
  have hcalls : .annotate "n" (notes "kube-pets/node-n") ∈ tick.calls Cluster.answer c ∧
      .annotate "m" (notes "kube-pets/node-m") ∈ tick.calls Cluster.answer c := by
    decide +kernel
  refine ⟨hcalls.1, hcalls.2, ?_, ?_⟩
  · obtain ⟨-, -, uid, m, -, -, hm, hguide, -⟩ :=
      paths_lead_to_guides Tick.keepsOwners_answer c { seconds := 0 } hcalls.1
        (get?_pathNotes_node _ _)
    cases hguide with
    | found hsplit hown hlast =>
      have hmem : m ∈ c.snapshot.configMaps := hsplit ▸ List.mem_append_right _ List.mem_cons_self
      obtain ⟨-, rfl⟩ := Cluster.isOwnedBy_halfHoused hmem hown
      exact ⟨m, hmem, hm, hown⟩
    | created hnone =>
      have hhouse : Cluster.house "2" ∈ c.snapshot.configMaps :=
        List.mem_cons_of_mem _ (List.mem_cons_of_mem _ List.mem_cons_self)
      exact absurd (Cluster.isOwnedBy_house "2") (hnone _ hhouse "2")
  · obtain ⟨node, hnode, uid, m, hname, huid, hm, hguide, -⟩ :=
      paths_lead_to_guides Tick.keepsOwners_answer c { seconds := 0 } hcalls.2
        (get?_pathNotes_node _ _)
    cases hguide with
    | found hsplit hown hlast =>
      have hmem : m ∈ c.snapshot.configMaps := hsplit ▸ List.mem_append_right _ List.mem_cons_self
      exact absurd (Cluster.isOwnedBy_halfHoused hmem hown).1 (by decide)
    | created hnone hmade hown =>
      rcases List.mem_cons.mp hnode with rfl | hnode
      · exact absurd hname (by decide)
      · obtain rfl := List.mem_singleton.mp hnode
        obtain rfl := Option.some.inj huid
        exact ⟨m, hmade, hm, hown⟩

/-- A node that takes the place of another one of its name is led to what was the other's. -/
theorem not_paths_lead_to_own :
    ¬ ∀ (c : Cluster) (now : Timestamp) (name path : String) (notes : Dict String),
      .annotate name notes ∈ (reconcile now c.snapshot).calls Cluster.answer c →
      notes.get? Names.nodeConfigNote = some path →
      ∃ node ∈ c.nodes, ∃ uid m, node.metadata.name = some name ∧ node.metadata.uid = some uid ∧
        m.metadata.path = path ∧
        (m ∈ c.configMaps ∨ m ∈ (reconcile now c.snapshot).created Cluster.answer c) ∧
        NodeConfig.IsOwnedBy name uid m := by
  intro h
  let c := Cluster.housing "2" "1"
  let notes := pathNotes "kube-pets/kube-pet-config" (some "kube-pets/node-n")
  have hcall : .annotate "n" notes ∈
      (reconcile { seconds := 0 } c.snapshot).calls Cluster.answer c := by
    decide +kernel
  have hcreated : (reconcile { seconds := 0 } c.snapshot).created Cluster.answer c = [] := by
    decide +kernel
  obtain ⟨node, hnode, uid, m, -, huid, -, hm, howned⟩ :=
    h c { seconds := 0 } "n" "kube-pets/node-n" notes hcall (get?_pathNotes_node _ _)
  obtain rfl := List.mem_singleton.mp hnode
  obtain rfl := Option.some.inj huid
  rcases hm with hm | hm
  · exact absurd (Cluster.isOwnedBy_housing _ hm howned).2 (by decide)
  · rw [hcreated] at hm
    cases hm

end TunnelFleet
