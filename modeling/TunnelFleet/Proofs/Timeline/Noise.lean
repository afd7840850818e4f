import Mathlib.Data.List.Permutation
import TunnelFleet.Proofs.Reading
import TunnelFleet.Proofs.Timeline.Echoes
import TunnelFleet.Proofs.Timeline.Ties

namespace TunnelFleet

namespace Sources

open Timeline

variable {plain noisy : Sources} {extra : List (Nat × List Node)}

/-- The same sources, but for extra node lists of which each has the key of the list sent just
before it. -/
structure IsNoisier (plain noisy : Sources) (extra : List (Nat × List Node)) : Prop where
  sends : ∃ nodes more, plain.nodes = .ofSends nodes ∧ noisy.nodes = .ofSends more ∧
    Echoes changeKey none nodes extra more ∧ more.Pairwise (·.1 ≤ ·.1)
  configMaps : noisy.configMaps = plain.configMaps
  requests : noisy.requests = plain.requests

/-- Nothing extra comes in the window after which a node list is passed on, nor when it is over. -/
def IsQuiet (plain : Sources) (extra : List (Nat × List Node)) : Prop :=
  ∀ e ∈ extra, ∀ new ∈ plain.newNodes.published, e.1 + Window.nodes ≤ new.1 ∨ new.1 < e.1

def AreAlike (lists others : List (Nat × List Node)) : Prop :=
  List.Forall₂ (fun list other => list.1 = other.1 ∧ changeKey list.2 = changeKey other.2)
    lists others

/-- Ticks at the same times over node lists of the same keys, over the same config maps and the
same signing requests. -/
def TickAlike (ticks others : List (Nat × List Node × List ConfigMap × List SigningRequest)) :
    Prop :=
  List.Forall₂ (fun tick other => tick.1 = other.1 ∧ changeKey tick.2.1 = changeKey other.2.1 ∧
    tick.2.2.1 = other.2.2.1 ∧ tick.2.2.2 = other.2.2.2) ticks others

theorem keys_newNodes (s : Sources) : mapValues changeKey s.newNodes =
    ((mapValues changeKey s.nodes).debounce Window.nodes).distinct id := by
  rw [debounce_mapValues, distinct_mapValues]
  rfl

theorem keys_combined (s : Sources) : mapValues (Prod.map changeKey id) s.combined =
    combine (mapValues changeKey s.newNodes) s.settledConfigMaps s.settledRequests := by
  rw [combine_mapValues]
  rfl

theorem keys_settle (s : Sources) : mapValues (Prod.map changeKey id) s.settle =
    (mapValues (Prod.map changeKey id) s.combined).debounce Window.together :=
  (debounce_mapValues _ _ _).symm

theorem areAlike_iff {lists others : List (Nat × List Node)} : AreAlike lists others ↔
    lists.map (fun e => (e.1, changeKey e.2)) = others.map fun e => (e.1, changeKey e.2) := by
  rw [← List.forall₂_eq_eq_eq, List.forall₂_map_left_iff, List.forall₂_map_right_iff]
  simp only [Prod.mk.injEq, AreAlike]

namespace IsNoisier

variable (h : IsNoisier plain noisy extra)
include h

theorem keys_eq (hquiet : plain.IsQuiet extra) :
    mapValues changeKey noisy.newNodes = mapValues changeKey plain.newNodes := by
  obtain ⟨nodes, more, hplain, hnoisy, hechoes, hmore⟩ := h.sends
  rw [keys_newNodes, keys_newNodes, hplain, hnoisy, mapValues_ofSends, mapValues_ofSends]
  refine distinct_debounce_echoes (by decide) hechoes.keys (List.pairwise_map.mpr hmore) ?_
  rw [← mapValues_ofSends, ← hplain, ← keys_newNodes, published_mapValues]
  intro e he new hnew
  obtain ⟨list, hlist, rfl⟩ := List.mem_map.mp he
  obtain ⟨found, hfound, rfl⟩ := List.mem_map.mp hnew
  exact (hquiet list hlist found hfound).imp_right Nat.le_of_lt

theorem keys_combined_eq (hquiet : plain.IsQuiet extra) :
    mapValues (Prod.map changeKey id) noisy.combined =
      mapValues (Prod.map changeKey id) plain.combined := by
  rw [keys_combined, keys_combined, h.keys_eq hquiet, settledConfigMaps, settledConfigMaps,
    settledRequests, settledRequests, h.configMaps, h.requests]

theorem isUntied (hquiet : plain.IsQuiet extra) (hplain : plain.IsUntied)
    (hnoisy : noisy.nodes.IsUntied Window.nodes) : noisy.IsUntied where
  nodes := hnoisy
  configMaps := h.configMaps ▸ hplain.configMaps
  requests := h.requests ▸ hplain.requests
  together := by
    rw [← isUntied_mapValues (Prod.map changeKey id), h.keys_combined_eq hquiet,
      isUntied_mapValues]
    exact hplain.together

theorem isQuiet_of_areAlike (hnoisy : noisy.nodes.IsUntied Window.nodes)
    (halike : AreAlike noisy.newNodes.published plain.newNodes.published) :
    plain.IsQuiet extra := by
  intro e he new hnew
  obtain ⟨nodes, more, -, hmoreNodes, hechoes, hmore⟩ := h.sends
  obtain ⟨settled, hsettled, hsettles⟩ := debounce_ofSends Window.nodes hmore
  obtain ⟨passed, hpassed, hsublist, -⟩ :=
    distinct_ofSends changeKey (hsettles.rising (by decide))
  have hnew' : noisy.newNodes.published = passed := by
    rw [newNodes, settledNodes, hmoreNodes, hsettled, hpassed, published_ofSends]
  rw [hnew'] at halike
  obtain ⟨other, hother, htime, -⟩ := exists_of_forall₂ halike.flip hnew
  have hsettling := hsublist.subset hother
  have hsent := hechoes.extra_sublist.subset he
  have hne := hsettles.ne_of_isUntied (by decide) hmore (hmoreNodes ▸ hnoisy) other hsettling e hsent
  rw [← htime]
  exact (hsettles.quiet other hsettling e hsent).imp_right fun hle => Nat.lt_of_le_of_ne hle hne.symm

theorem areAlike_iff_isQuiet (hnoisy : noisy.nodes.IsUntied Window.nodes) :
    AreAlike noisy.newNodes.published plain.newNodes.published ↔ plain.IsQuiet extra := by
  refine ⟨h.isQuiet_of_areAlike hnoisy, fun hquiet => ?_⟩
  rw [areAlike_iff, ← published_mapValues, ← published_mapValues, h.keys_eq hquiet]

theorem tickAlike_of_isQuiet (hquiet : plain.IsQuiet extra) :
    TickAlike noisy.settle.published plain.settle.published := by
  have hticks : mapValues (Prod.map changeKey id) noisy.settle =
      mapValues (Prod.map changeKey id) plain.settle := by
    rw [keys_settle, keys_settle, h.keys_combined_eq hquiet]
  have hpublished := congrArg published hticks
  rw [published_mapValues, published_mapValues, ← List.forall₂_eq_eq_eq,
    List.forall₂_map_left_iff, List.forall₂_map_right_iff] at hpublished
  refine hpublished.imp fun tick other heq => ?_
  simpa [Prod.ext_iff] using heq

/-- Extra node lists with nothing new in them do not show in the ticks, if none comes while a new
node list settles. Without this a new list is not passed on when it would have been. Neither depends
on how ties fall, as long as there are none: a tie may fall differently in the two sources. -/
theorem settle_tickAlike (hplain : plain.IsUntied) (hnoisy : noisy.nodes.IsUntied Window.nodes)
    (ties others : Ties) :
    (AreAlike (noisy.newNodesBy ties).published (plain.newNodesBy others).published ↔
        plain.IsQuiet extra) ∧
      (plain.IsQuiet extra →
        TickAlike (noisy.settleBy ties).published (plain.settleBy others).published) := by
  rw [newNodesBy_eq ties hnoisy, newNodesBy_eq others hplain.nodes]
  refine ⟨h.areAlike_iff_isQuiet hnoisy, fun hquiet => ?_⟩
  rw [settleBy_eq ties (h.isUntied hquiet hplain hnoisy), settleBy_eq others hplain]
  exact h.tickAlike_of_isQuiet hquiet

end IsNoisier

def churning (name round : String) : Node where
  metadata := { name := some name, annotations := some (.ofList [("virtual-kubelet.io/round", round)]) }

theorem changeKey_churning (name round other : String) :
    changeKey [churning name round] = changeKey [churning name other] := by
  have hnoisy : NodeKey.isNoisy "virtual-kubelet.io/round" = true := by decide
  simp [changeKey, NodeKey.ofNode, churning, NodeKey.quietNotes, Dict.filterKeys, Dict.ofList,
    Dict.insert, Dict.insertEntry, Dict.empty, hnoisy]

/-- The list of the first node has settled when it comes again, and that of the second is overtaken. -/
theorem settle_tickAlike_of_overtaken :
    let configMaps : Timeline (List ConfigMap) := .ofSends [(0, [])]
    let requests : Timeline (List SigningRequest) := .ofSends [(0, [])]
    let plain : Sources := ⟨.ofSends [(0, [churning "a" "1"]), (400, [churning "b" "1"]),
      (500, [churning "c" "1"])], configMaps, requests⟩
    let extra := [(300, [churning "a" "2"]), (450, [churning "b" "2"])]
    let noisy : Sources := ⟨.ofSends [(0, [churning "a" "1"]), (300, [churning "a" "2"]),
      (400, [churning "b" "1"]), (450, [churning "b" "2"]), (500, [churning "c" "1"])],
      configMaps, requests⟩
    let ties := Ties.always .both
    let others := Ties.always .value
    IsNoisier plain noisy extra ∧ plain.IsUntied ∧ noisy.nodes.IsUntied Window.nodes ∧
      plain.IsQuiet extra ∧
      AreAlike (noisy.newNodesBy ties).published (plain.newNodesBy others).published ∧
      TickAlike (noisy.settleBy ties).published (plain.settleBy others).published ∧
      (noisy.settleBy ties).published = [(1750, [churning "c" "1"], [], [])] := by
  intro configMaps requests plain extra noisy ties others
  have hnoisier : IsNoisier plain noisy extra := by
    refine ⟨⟨_, _, rfl, rfl, .send _ (.echo _ ?_ (.send _ (.echo _ ?_ (.send _ (.nil _))))),
      by decide⟩, rfl, rfl⟩
    · exact congrArg some (changeKey_churning "a" "1" "2")
    · exact congrArg some (changeKey_churning "b" "1" "2")
  have hcombined : plain.combined.map (·.1) = [250, 750] := by cbv
  have hplain : plain.IsUntied :=
    ⟨by decide, by decide, by decide, isUntied_of_times hcombined (by decide)⟩
  have hnodes : noisy.nodes.IsUntied Window.nodes := by decide
  have hnew : plain.newNodes.published =
      [(250, [churning "a" "1"]), (750, [churning "c" "1"])] := by cbv
  have hquiet : plain.IsQuiet extra := by
    rw [IsQuiet, hnew]
    decide
  obtain ⟨hpasses, hticks⟩ := hnoisier.settle_tickAlike hplain hnodes ties others
  exact ⟨hnoisier, hplain, hnodes, hquiet, hpasses.mpr hquiet, hticks hquiet, by cbv⟩

/-- The same node comes again before its list has settled, and the tick comes later. -/
theorem not_tickAlike_of_isNoisier :
    ¬ ∀ plain noisy extra, IsNoisier plain noisy extra → plain.IsUntied → noisy.IsUntied →
      TickAlike noisy.settle.published plain.settle.published := by
  intro h
  let plain : Sources :=
    ⟨.ofSends [(0, [churning "a" "1"])], .ofSends [(0, [])], .ofSends [(0, [])]⟩
  let noisy : Sources := ⟨.ofSends [(0, [churning "a" "1"]), (100, [churning "a" "2"])],
    .ofSends [(0, [])], .ofSends [(0, [])]⟩
  have hnoisier : IsNoisier plain noisy [(100, [churning "a" "2"])] :=
    ⟨⟨_, _, rfl, rfl, .send _ (.echo _ (congrArg some (changeKey_churning "a" "1" "2")) (.nil _)),
      by decide⟩, rfl, rfl⟩
  have hfirst : plain.combined.map (·.1) = [250] := by cbv
  have hsecond : noisy.combined.map (·.1) = [350] := by cbv
  have huntied : plain.IsUntied :=
    ⟨by decide, by decide, by decide, isUntied_of_times hfirst (by decide)⟩
  have hmore : noisy.IsUntied :=
    ⟨by decide, by decide, by decide, isUntied_of_times hsecond (by decide)⟩
  have hplain : plain.settle.published = [(1250, [churning "a" "1"], [], [])] := by cbv
  have hnoisy : noisy.settle.published = [(1350, [churning "a" "2"], [], [])] := by cbv
  have htick := h plain noisy _ hnoisier huntied hmore
  rw [hplain, hnoisy] at htick
  obtain ⟨⟨htime, -⟩, -⟩ := List.forall₂_cons.mp htick
  cases htime

end Sources

end TunnelFleet
