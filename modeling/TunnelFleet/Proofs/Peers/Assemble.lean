import Mathlib.Data.List.Infix
import TunnelFleet.Peers.Snapshot

namespace TunnelFleet

namespace Text

theorem not_infix_before {mark : List Char} (hmark : mark ≠ []) (cs : List Char) :
    ¬ mark <:+: before mark cs := by
  suffices h : ∀ cs, before mark cs <+: cs ∧ ¬ mark <:+: before mark cs from (h cs).2
  intro cs
  induction cs with
  | nil => exact ⟨List.nil_prefix, fun h => hmark (List.infix_nil.mp h)⟩
  | cons c cs ih =>
    obtain ⟨hbegin, hinfix⟩ := ih
    rw [before]
    split
    next => exact ⟨List.nil_prefix, fun h => hmark (List.infix_nil.mp h)⟩
    next hstart =>
      have hall : c :: before mark cs <+: c :: cs := List.cons_prefix_cons.mpr ⟨rfl, hbegin⟩
      refine ⟨hall, fun h => ?_⟩
      rcases List.infix_cons_iff.mp h with h | h
      · exact hstart (List.isPrefixOf_iff_prefix.mpr (h.trans hall))
      · exact hinfix h

theorem exists_append_of_before (mark cs : List Char) :
    ∃ tail, cs = before mark cs ++ tail ∧ (tail = [] ∨ mark <+: tail) := by
  induction cs with
  | nil => exact ⟨[], rfl, .inl rfl⟩
  | cons c cs ih =>
    rw [before]
    split
    next hstart => exact ⟨c :: cs, rfl, .inr (List.isPrefixOf_iff_prefix.mp hstart)⟩
    next =>
      obtain ⟨tail, hcs, htail⟩ := ih
      exact ⟨tail, by rw [List.cons_append, ← hcs], htail⟩

theorem before_append {c : Char} {mark head tail : List Char} (hc : c ∉ mark)
    (hhead : ¬ (c :: mark) <:+: head) (htail : tail = [] ∨ (c :: mark) <+: tail) :
    before (c :: mark) (head ++ tail) = head := by
  induction head with
  | nil =>
    rcases htail with rfl | ⟨rest, rfl⟩
    · rfl
    · simp [before]
  | cons d ds ih =>
    have hds : ¬ (c :: mark) <:+: ds := fun h => hhead (h.trans (List.suffix_cons d ds).isInfix)
    have hstart : ¬ (c :: mark) <+: d :: ds ++ tail := by
      intro hbegin
      rcases List.prefix_or_prefix_of_prefix hbegin (List.prefix_append _ tail) with h | h
      · exact hhead h.isInfix
      · obtain ⟨more, hmore⟩ := h
        have hmark : mark = ds ++ more := (List.cons.inj hmore).2.symm
        have hmoreTail : more <+: tail := by
          rw [← hmore] at hbegin
          exact (List.prefix_append_right_inj _).mp hbegin
        cases more with
        | nil =>
          rw [List.append_nil] at hmore
          exact hhead (hmore ▸ List.infix_rfl)
        | cons e es =>
          rcases htail with rfl | ⟨rest, rfl⟩
          · simp at hmoreTail
          · obtain ⟨rfl, -⟩ := List.cons_prefix_cons.mp hmoreTail
            exact hc (by simp [hmark])
    rw [List.cons_append, before, if_neg, ih hds]
    exact fun h => hstart (List.isPrefixOf_iff_prefix.mp h)

end Text

/-- A part of a tunnel file begins as peers do. -/
def IsPeerBlock (block : String) : Prop :=
  "[Peer]".toList <+: block.toList

theorem Allocation.isPeerBlock_peerBlock (row : Allocation) : IsPeerBlock row.peerBlock := by
  refine ⟨(" # " ++ row.nodeName ++ "\nPublicKey = " ++ row.nodeKey ++ "\nAllowedIPs = " ++
    row.nodeIP ++ "/32 # node\nAllowedIPs = " ++ row.podNet ++ " # pods\n").toList, ?_⟩
  unfold peerBlock
  simp only [String.toList_append, List.append_assoc, String.reduceToList, List.cons_append,
    List.nil_append]

theorem PeerSnapshot.isPeerBlock {configMaps : List ConfigMap} {routerKey : String}
    {snapshot : PeerSnapshot} (h : ofConfigMaps configMaps routerKey = .ok (some snapshot)) :
    ∀ block ∈ snapshot.blocks, IsPeerBlock block := by
  unfold ofConfigMaps at h
  split at h
  next => cases h
  next m text _ =>
    cases htable : Table.ofText text with
    | error e => simp [htable, Except.map] at h
    | ok table =>
      simp only [htable, Except.map, Except.ok.injEq, Option.some.injEq] at h
      subst h
      intro block hblock
      obtain ⟨row, -, rfl⟩ := List.mem_map.mp hblock
      exact row.isPeerBlock_peerBlock

theorem toList_tunnelHeader (installed : String) :
    (tunnelHeader installed).toList = Text.before "\n[Peer]".toList installed.toList :=
  String.toList_ofList

theorem prefix_join_of_isPeerBlock {blocks : List String}
    (h : ∀ block ∈ blocks, IsPeerBlock block) :
    (String.join (blocks.map fun block => "\n" ++ block)).toList = [] ∨
      "\n[Peer]".toList <+: (String.join (blocks.map fun block => "\n" ++ block)).toList := by
  cases blocks with
  | nil => exact .inl (by simp)
  | cons block rest =>
    obtain ⟨more, hmore⟩ := h block List.mem_cons_self
    refine .inr ⟨more ++ (String.join (rest.map fun block => "\n" ++ block)).toList, ?_⟩
    rw [List.map_cons, String.join_cons, String.toList_append, String.toList_append, ← hmore]
    rfl

theorem tunnelHeader_assemble (installed : String) {blocks : List String}
    (h : ∀ block ∈ blocks, IsPeerBlock block) :
    tunnelHeader (assemble installed blocks) = tunnelHeader installed := by
  have hhead : ¬ "\n[Peer]".toList <:+: (tunnelHeader installed).toList := by
    have hmark : "\n[Peer]".toList ≠ [] := by decide
    rw [toList_tunnelHeader]
    exact Text.not_infix_before hmark _
  have hbefore : Text.before "\n[Peer]".toList ((tunnelHeader installed).toList ++
      (String.join (blocks.map fun block => "\n" ++ block)).toList) =
      (tunnelHeader installed).toList :=
    Text.before_append (by decide) hhead (prefix_join_of_isPeerBlock h)
  rw [tunnelHeader, assemble, String.toList_append, hbefore, String.ofList_toList]

theorem assemble_assemble (installed : String) {blocks : List String} (others : List String)
    (h : ∀ block ∈ blocks, IsPeerBlock block) :
    assemble (assemble installed blocks) others = assemble installed others := by
  rw [assemble, tunnelHeader_assemble installed h, ← assemble]

end TunnelFleet
