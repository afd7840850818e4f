import Mathlib.Data.List.Nodup
import Mathlib.Data.List.Perm.Basic
import TunnelFleet.Proofs.Reading
import TunnelFleet.Proofs.Tick.ChangeKey

namespace TunnelFleet

variable {nodes others : List Node}

/-- Two nodes that differ in nothing that is worth another tick: they have one name and one spec, and
the same annotations but for those that change all the time. -/
structure Node.AgreesWith (node other : Node) : Prop where
  name : node.metadata.name = other.metadata.name
  spec : node.spec = other.spec
  notes : ∀ key, ¬ Names.noisyNotes.toList <+: key.toList →
    node.metadata.note? key = other.metadata.note? key

namespace NodeKey

theorem isNoisy_eq_false_iff {key : String} :
    isNoisy key = false ↔ ¬ Names.noisyNotes.toList <+: key.toList := by
  rw [← List.isPrefixOf_iff_prefix, Bool.not_eq_true]
  rfl

theorem rising_quietNotes (m : Meta) : (quietNotes m).Pairwise (·.1 < ·.1) := by
  unfold quietNotes
  cases m.annotations with
  | none => exact .nil
  | some notes => exact (notes.filterKeys _).rising

theorem lookup_quietNotes_of_isNoisy (m : Meta) {key : String} (h : isNoisy key = true) :
    Dict.lookup key (quietNotes m) = none := by
  refine Dict.lookup_eq_none fun entry hentry heq => ?_
  unfold quietNotes at hentry
  cases hnotes : m.annotations with
  | none =>
    rw [hnotes] at hentry
    cases hentry
  | some notes =>
    rw [hnotes] at hentry
    have hquiet := (List.mem_filter.mp hentry).2
    simp [heq, h] at hquiet

theorem quietNotes_eq_iff {m other : Meta} : quietNotes m = quietNotes other ↔
    ∀ key, ¬ Names.noisyNotes.toList <+: key.toList → m.note? key = other.note? key := by
  constructor
  · intro h key hkey
    have hquiet := isNoisy_eq_false_iff.mpr hkey
    rw [note?_eq_lookup m hquiet, note?_eq_lookup other hquiet, h]
  · intro h
    refine Dict.eq_of_lookup_eq (rising_quietNotes m) (rising_quietNotes other) fun key => ?_
    cases hkey : isNoisy key with
    | true => rw [lookup_quietNotes_of_isNoisy m hkey, lookup_quietNotes_of_isNoisy other hkey]
    | false =>
      rw [← note?_eq_lookup m hkey, ← note?_eq_lookup other hkey]
      exact h key (isNoisy_eq_false_iff.mp hkey)

theorem ofNode_eq_iff {node other : Node} : ofNode node = ofNode other ↔ node.AgreesWith other := by
  rw [ofNode, ofNode, mk.injEq, quietNotes_eq_iff]
  exact ⟨fun ⟨hname, hnotes, hspec⟩ => ⟨hname, hspec, hnotes⟩,
    fun h => ⟨h.name, h.notes, h.spec⟩⟩

theorem name_eq_of_le_of_le {a b : NodeKey} (hab : a.le b = true) (hba : b.le a = true) :
    a.name = b.name := by
  cases ha : a.name with
  | none =>
    cases hb : b.name with
    | none => rfl
    | some y =>
      obtain ⟨x, hx, -⟩ := (le_iff hb).mp hba
      rw [ha] at hx
      cases hx
  | some x =>
    obtain ⟨y, hb, hxy⟩ := (le_iff ha).mp hab
    obtain ⟨z, hz, hyx⟩ := (le_iff hb).mp hba
    obtain rfl : x = z := Option.some.inj (ha.symm.trans hz)
    rw [hb, String.le_antisymm hxy hyx]

theorem mergeSort_eq_of_perm {keys others : List NodeKey} (hnames : (keys.map (·.name)).Nodup)
    (h : keys.Perm others) : keys.mergeSort le = others.mergeSort le := by
  have hkeys := List.mergeSort_perm keys le
  have hothers := List.mergeSort_perm others le
  have hperm : (keys.mergeSort le).Perm (others.mergeSort le) := (hkeys.trans h).trans hothers.symm
  refine hperm.eq_of_pairwise (fun a b ha hb hab hba => ?_)
    (List.pairwise_mergeSort le_trans le_total keys)
    (List.pairwise_mergeSort le_trans le_total others)
  have hmemA : a ∈ keys := hkeys.mem_iff.mp ha
  have hmemB : b ∈ keys := h.mem_iff.mpr (hothers.mem_iff.mp hb)
  exact List.inj_on_of_nodup_map hnames hmemA hmemB (name_eq_of_le_of_le hab hba)

theorem perm_of_changeKey_eq (h : changeKey nodes = changeKey others) :
    (nodes.map ofNode).Perm (others.map ofNode) := by
  have hnodes := List.mergeSort_perm (nodes.map ofNode) le
  have hothers := List.mergeSort_perm (others.map ofNode) le
  exact (hnodes.symm.trans (.of_eq h)).trans hothers

end NodeKey

theorem exists_reordered_of_perm
    (h : (nodes.map NodeKey.ofNode).Perm (others.map NodeKey.ofNode)) :
    ∃ reordered : List Node, reordered.Perm others ∧ List.Forall₂ Node.AgreesWith nodes reordered := by
  have hkeys : List.Forall₂ (fun key node => key = NodeKey.ofNode node)
      (others.map NodeKey.ofNode) others :=
    List.forall₂_map_left_iff.mpr (List.forall₂_same.mpr fun _ _ => rfl)
  obtain ⟨reordered, hkeyed, hperm⟩ := List.perm_comp_forall₂ h hkeys
  have hagree := List.forall₂_map_left_iff.mp hkeyed
  exact ⟨reordered, hperm, hagree.imp fun _ _ heq => NodeKey.ofNode_eq_iff.mp heq⟩

theorem map_ofNode_eq_of_agree (h : List.Forall₂ Node.AgreesWith nodes others) :
    nodes.map NodeKey.ofNode = others.map NodeKey.ofNode := by
  rw [← List.forall₂_eq_eq_eq, List.forall₂_map_left_iff, List.forall₂_map_right_iff]
  exact h.imp fun _ _ hagree => NodeKey.ofNode_eq_iff.mpr hagree

/-- The change key of nodes with distinct names tells what counts about each of them, and nothing
else: neither in which order they come nor the annotations that change all the time. -/
theorem changeKey_eq_iff (hnames : (nodes.map (·.metadata.name)).Nodup) :
    changeKey nodes = changeKey others ↔
      ∃ reordered : List Node,
        reordered.Perm others ∧ List.Forall₂ Node.AgreesWith nodes reordered := by
  constructor
  · intro h
    exact exists_reordered_of_perm (NodeKey.perm_of_changeKey_eq h)
  · rintro ⟨reordered, hperm, hagree⟩
    have hkeys : (nodes.map NodeKey.ofNode).Perm (others.map NodeKey.ofNode) := by
      rw [map_ofNode_eq_of_agree hagree]
      exact hperm.map _
    refine NodeKey.mergeSort_eq_of_perm ?_ hkeys
    rw [List.map_map]
    exact hnames

/-- The order, a heartbeat and annotations that are missing altogether make no difference, a pod
block does. -/
theorem changeKey_eq_iff_reordered :
    let node (name : Option String) (block beat : String) : Node := {
      metadata := {
        name
        annotations := some (.ofList [(Names.publicKeyNote, "K"), (Names.noisyNotes ++ "beat", beat)]) }
      spec := some { podCIDR := some block } }
    let bare : Node := {}
    let beating : Node := {
      metadata := { annotations := some (.ofList [(Names.noisyNotes ++ "beat", "2")]) } }
    let nodes := [node "b" "10.1.1.0/24" "1", bare, node "a" "10.1.2.0/24" "1"]
    let others := [beating, node "a" "10.1.2.0/24" "2", node "b" "10.1.1.0/24" "2"]
    let changed := [beating, node "a" "10.1.3.0/24" "1", node "b" "10.1.1.0/24" "1"]
    (nodes.map (·.metadata.name)).Nodup ∧ changeKey nodes = changeKey others ∧
      changeKey nodes ≠ changeKey changed := by
  intro node bare beating nodes others changed
  have hnames : (nodes.map (·.metadata.name)).Nodup := by decide
  refine ⟨hnames, (changeKey_eq_iff hnames).mpr ?_, fun h => ?_⟩
  · refine ⟨[node "b" "10.1.1.0/24" "2", beating, node "a" "10.1.2.0/24" "2"], by decide +kernel, ?_⟩
    refine .cons ?_ (.cons ?_ (.cons ?_ .nil))
    all_goals exact NodeKey.ofNode_eq_iff.mp (by decide +kernel)
  · obtain ⟨reordered, hperm, hagree⟩ := (changeKey_eq_iff hnames).mp h
    obtain ⟨other, hother, hsame⟩ := exists_of_forall₂ hagree
      (show node "a" "10.1.2.0/24" "1" ∈ nodes by simp [nodes])
    have hdiffer : ∀ other ∈ changed, (node "a" "10.1.2.0/24" "1").metadata.name =
        other.metadata.name → (node "a" "10.1.2.0/24" "1").spec ≠ other.spec := by decide
    exact hdiffer other (hperm.mem_iff.mp hother) hsame.name hsame.spec

end TunnelFleet
