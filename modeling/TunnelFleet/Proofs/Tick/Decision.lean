import TunnelFleet.Proofs.Cluster.Keeps

namespace TunnelFleet

theorem get?_pathNotes_cluster (clusterPath : String) (nodePath : Option String) :
    (pathNotes clusterPath nodePath).get? Names.clusterConfigNote = some clusterPath := by
  have hne : Names.nodeConfigNote ≠ Names.clusterConfigNote := by decide
  cases nodePath with
  | none => exact Dict.get?_insert_self _ _ _
  | some path =>
    rw [pathNotes, Dict.get?_insert_of_ne _ _ hne]
    exact Dict.get?_insert_self _ _ _

theorem get?_pathNotes_node (clusterPath : String) (nodePath : Option String) :
    (pathNotes clusterPath nodePath).get? Names.nodeConfigNote = nodePath := by
  have hne : Names.clusterConfigNote ≠ Names.nodeConfigNote := by decide
  cases nodePath with
  | none => exact Dict.get?_insert_of_ne _ _ hne
  | some path => exact Dict.get?_insert_self _ _ _

theorem pathNotes_some_ne_none (clusterPath path : String) :
    pathNotes clusterPath (some path) ≠ pathNotes clusterPath none := by
  intro heq
  have hget := congrArg (fun notes => notes.get? Names.nodeConfigNote) heq
  rw [get?_pathNotes_node, get?_pathNotes_node] at hget
  cases hget

theorem Meta.note?_annotate (m : Meta) {notes : Dict String} {key value : String}
    (h : notes.get? key = some value) : (m.annotate notes).note? key = some value := by
  rw [note?, annotate, Option.bind_some]
  exact Dict.get?_merge_of_some h

namespace Node

variable {node : Node} {clusterPath : String} {nodePath : Option String} {can : Bool}

theorem isStale_annotate (m : Meta) (h : node.metadata = m.annotate (pathNotes clusterPath nodePath)) :
    node.isStale clusterPath nodePath = false := by
  have hcluster : node.metadata.note? Names.clusterConfigNote = some clusterPath := by
    rw [h]
    exact m.note?_annotate (get?_pathNotes_cluster clusterPath nodePath)
  have hnode : ∀ path, nodePath = some path →
      node.metadata.note? Names.nodeConfigNote = some path := by
    rintro path rfl
    rw [h]
    exact m.note?_annotate (get?_pathNotes_node clusterPath (some path))
  cases nodePath with
  | none => simp [isStale, hcluster]
  | some path => simp [isStale, hcluster, hnode path rfl]

theorem decide_of_not_isStale (h : node.isStale clusterPath nodePath = false)
    (hpath : nodePath.isSome = true) : node.decide clusterPath nodePath can = .converged := by
  obtain ⟨path, rfl⟩ := Option.isSome_iff_exists.mp hpath
  rw [decide, h]
  cases node.metadata.note? Names.publicKeyNote <;> simp

theorem of_decide_announce {notes : Dict String}
    (h : node.decide clusterPath nodePath can = .announce notes) :
    node.isStale clusterPath nodePath = true ∧ notes = pathNotes clusterPath nodePath := by
  unfold decide at h
  split at h
  next hstale => exact ⟨hstale, (Decision.announce.inj h).symm⟩
  next =>
    split at h
    next => split at h <;> cases h
    next => cases h

theorem of_decide_provision {key : String}
    (h : node.decide clusterPath nodePath can = .provision key) :
    node.isStale clusterPath nodePath = false ∧ nodePath = none ∧ can = true := by
  unfold decide at h
  split at h
  next => cases h
  next hstale =>
    split at h
    next =>
      split at h
      next hneeds =>
        obtain ⟨hpath, hcan⟩ := Bool.and_eq_true_iff.mp hneeds
        have hpath := (Bool.and_eq_true_iff.mp hpath).1
        exact ⟨by simpa using hstale, Option.isNone_iff_eq_none.mp hpath, hcan⟩
      next => cases h
    next => cases h

theorem of_decide_converged (h : node.decide clusterPath nodePath can = .converged) :
    node.isStale clusterPath nodePath = false := by
  unfold decide at h
  split at h
  next => cases h
  next hstale => simpa using hstale

end Node

def Reconcile.Setting.terms (setting : Setting) : Terms :=
  ⟨setting.clusterPath, setting.networking⟩

namespace Cluster

def decision (t : Terms) (c : Cluster) (node : Node) (name : String) : Decision :=
  node.decide t.clusterPath (NodeConfig.path? c.configMaps name) (c.canProvision t)

def IsTold (t : Terms) (c : Cluster) (node : Node) (name : String) : Prop :=
  node.isStale t.clusterPath (NodeConfig.path? c.configMaps name) = false

def Rests (t : Terms) (c : Cluster) (node : Node) (name : String) : Prop :=
  c.decision t node name = .converged ∨
    ∃ key, c.decision t node name = .provision key ∧ c.IsExhausted t key

variable {t : Terms} {c after : Cluster} {node : Node} {name : String}

theorem decide_eq_decision {setting : Reconcile.Setting} {progress : Reconcile.Progress}
    (htable : progress.table = c.table?)
    (hpath : NodeConfig.path? setting.configMaps name = NodeConfig.path? c.configMaps name) :
    node.decide setting.clusterPath (NodeConfig.path? setting.configMaps name)
      (Reconcile.canProvision setting progress.table) = c.decision setting.terms node name := by
  rw [hpath, htable]
  rfl

theorem isTold_told (t : Terms) (c : Cluster) (node : Node) (name : String) {notes : Dict String}
    (hnotes : notes = pathNotes t.clusterPath (NodeConfig.path? c.configMaps name)) :
    IsTold t c { node with metadata := node.metadata.annotate notes } name :=
  Node.isStale_annotate node.metadata (hnotes ▸ rfl)

theorem IsTold.rests (h : c.IsTold t node name)
    (hpath : (NodeConfig.path? c.configMaps name).isSome = true) : c.Rests t node name :=
  .inl (Node.decide_of_not_isStale h hpath)

theorem Rests.isTold (h : c.Rests t node name) : c.IsTold t node name := by
  rcases h with hconverged | ⟨key, hprovision, -⟩
  · exact Node.of_decide_converged hconverged
  · exact (Node.of_decide_provision hprovision).1

theorem IsTold.of_keeps {other : String} (h : c.IsTold t node name)
    (hkeeps : Keeps t other c after) (hne : name ≠ other) : after.IsTold t node name := by
  rw [IsTold, hkeeps.paths name hne]
  exact h

theorem Rests.of_keeps {other : String} (h : c.Rests t node name) (hkeeps : Keeps t other c after)
    (hne : name ≠ other) : after.Rests t node name := by
  have hdecision : after.decision t node name = c.decision t node name := by
    rw [decision, decision, hkeeps.paths name hne, hkeeps.canProvision]
  rw [Rests, hdecision]
  refine h.imp_right fun ⟨key, hprovision, hexhausted⟩ => ?_
  -- no row can be stored in an exhausted table, so it is still the same one
  exact ⟨key, hprovision, hexhausted.of_table?_eq (hkeeps.exhausted key hexhausted)⟩

end Cluster

end TunnelFleet
