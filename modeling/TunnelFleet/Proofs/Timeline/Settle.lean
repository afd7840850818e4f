import Mathlib.Data.List.Forall2
import Mathlib.Data.List.NodupEquivFin
import Mathlib.Data.List.Permutation
import TunnelFleet.Proofs.Timeline.Combine
import TunnelFleet.Proofs.Timeline.Debounce
import TunnelFleet.Proofs.Timeline.Distinct
import TunnelFleet.Timeline.Settle

namespace TunnelFleet

namespace Timeline

variable {α : Type} {window time : Nat} {sends out seen : List (Nat × α)}

def HasSettled (sends : List (Nat × α)) (window time : Nat) : Prop :=
  ∃ sent ∈ sends, sent.1 + window ≤ time ∧ ∀ s ∈ sends, s.1 ≤ sent.1 ∨ sent.1 + window ≤ s.1

/-- Whatever is seen was sent before, and what is seen next was not sent earlier. -/
def Follows (sends seen : List (Nat × α)) : Prop :=
  ∃ indices : List Nat, indices.Pairwise (· ≤ ·) ∧
    List.Forall₂ (fun i e => ∃ sent, sends[i]? = some (sent, e.2) ∧ sent ≤ e.1) indices seen

theorem Settles.hasSettled (h : Settles window sends out) {e : Nat × α} (he : e ∈ out)
    (htime : e.1 ≤ time) : HasSettled sends window time := by
  obtain ⟨sent, hsent, rfl⟩ := h.exists_send he
  refine ⟨sent, hsent, htime, fun s hs => ?_⟩
  rcases h.quiet _ he s hs with hle | hle
  · exact .inl (Nat.le_of_add_le_add_right hle)
  · exact .inr hle

theorem Settles.hasSettled_of_newest? (h : Settles window sends out) {value : α}
    (hvalue : newest? out time = some value) : HasSettled sends window time := by
  obtain ⟨e, he, -⟩ := Option.map_eq_some_iff.mp hvalue
  obtain ⟨hmem, hle⟩ := of_latest? he
  exact h.hasSettled hmem hle

theorem HasSettled.mono {later : Nat} (h : HasSettled sends window time) (hle : time ≤ later) :
    HasSettled sends window later := by
  obtain ⟨sent, hsent, htime, hquiet⟩ := h
  exact ⟨sent, hsent, Nat.le_trans htime hle, hquiet⟩

theorem getElem?_of_latest? (h : sends.Pairwise (·.1 < ·.1)) {e : Nat × α}
    (he : latest? sends time = some e) :
    sends[sends.countP (fun s => s.1 ≤ time) - 1]? = some e := by
  induction sends with
  | nil => cases he
  | cons first rest ih =>
    obtain ⟨hhead, hrest⟩ := List.pairwise_cons.mp h
    rw [latest?_cons] at he
    split at he
    next hfirst =>
      rw [List.countP_cons_of_pos (by simpa using hfirst)]
      cases hlater : latest? rest time with
      | none =>
        have hnone : rest.countP (fun s => s.1 ≤ time) = 0 := by
          rw [List.countP_eq_length_filter, List.getLast?_eq_none_iff.mp hlater]
          rfl
        rw [hlater] at he
        simpa [hnone] using he
      | some found =>
        have hpos : 0 < rest.countP (fun s => s.1 ≤ time) := by
          obtain ⟨hmem, hle⟩ := of_latest? hlater
          exact List.countP_pos_iff.mpr ⟨found, hmem, by simpa using hle⟩
        obtain rfl : found = e := by simpa [hlater] using he
        have hfound := ih hrest hlater
        obtain ⟨count, hcount⟩ := Nat.exists_eq_succ_of_ne_zero (Nat.ne_of_gt hpos)
        simpa [hcount] using hfound
    next hfirst =>
      rw [latest?_of_forall_lt fun s hs => by have := hhead s hs; omega] at he
      cases he

theorem follows_of_newest? (delay : Nat) (hout : out.Sublist (sends.map (later window)))
    (hrising : out.Pairwise (·.1 < ·.1)) (htimes : seen.Pairwise (·.1 ≤ ·.1))
    (hseen : ∀ e ∈ seen, newest? out (e.1 - delay) = some e.2) : Follows sends seen := by
  obtain ⟨place, hplace⟩ := List.sublist_iff_exists_orderEmbedding_getElem?_eq.mp hout
  let index (e : Nat × α) : Nat := place (out.countP (fun s => s.1 ≤ e.1 - delay) - 1)
  refine ⟨seen.map index, ?_, ?_⟩
  · refine List.pairwise_map.mpr (htimes.imp fun {a b} hab => place.monotone ?_)
    refine Nat.sub_le_sub_right (List.countP_mono_left fun s _ hs => ?_) 1
    have hle : s.1 ≤ a.1 - delay := by simpa using hs
    exact decide_eq_true (by omega)
  · refine List.forall₂_map_left_iff.mpr (List.forall₂_same.mpr fun e he => ?_)
    obtain ⟨found, hfound, hvalue⟩ := Option.map_eq_some_iff.mp (hseen e he)
    have hget := (hplace _).symm.trans (getElem?_of_latest? hrising hfound)
    rw [List.getElem?_map] at hget
    obtain ⟨sent, hsent, rfl⟩ := Option.map_eq_some_iff.mp hget
    have hle := (of_latest? hfound).2
    refine ⟨sent.1, ?_, ?_⟩
    · rw [← hvalue]
      exact hsent
    · simp only [later] at hle
      omega

end Timeline

namespace Sources

open Timeline

variable {nodes : List (Nat × List Node)} {configMaps : List (Nat × List ConfigMap)}
  {requests : List (Nat × List SigningRequest)}

def ofSends (nodes : List (Nat × List Node)) (configMaps : List (Nat × List ConfigMap))
    (requests : List (Nat × List SigningRequest)) : Sources :=
  ⟨.ofSends nodes, .ofSends configMaps, .ofSends requests⟩

/-- What the stages between three sources and the ticks publish. -/
structure Stages (nodes : List (Nat × List Node)) (configMaps : List (Nat × List ConfigMap))
    (requests : List (Nat × List SigningRequest)) where
  settledNodes : List (Nat × List Node)
  newNodes : List (Nat × List Node)
  settledMaps : List (Nat × List ConfigMap)
  settledRequests : List (Nat × List SigningRequest)
  combined : List (Nat × List Node × List ConfigMap × List SigningRequest)
  ticks : List (Nat × List Node × List ConfigMap × List SigningRequest)
  nodesSettle : Settles Window.nodes nodes settledNodes
  newNodesSublist : newNodes.Sublist settledNodes
  sameKey : ∀ time, (latest? newNodes time).map (fun e => changeKey e.2) =
    (latest? settledNodes time).map fun e => changeKey e.2
  mapsSettle : Settles Window.configMaps configMaps settledMaps
  requestsSettle : Settles Window.requests requests settledRequests
  combines : CombinesAll newNodes settledMaps settledRequests combined
  settles : Settles Window.together combined ticks

theorem exists_stages (hnodes : nodes.Pairwise (·.1 ≤ ·.1))
    (hmaps : configMaps.Pairwise (·.1 ≤ ·.1)) (hrequests : requests.Pairwise (·.1 ≤ ·.1)) :
    ∃ stages : Stages nodes configMaps requests,
      (ofSends nodes configMaps requests).settle = Timeline.ofSends stages.ticks := by
  obtain ⟨settledNodes, hsettledNodes, hn⟩ := debounce_ofSends Window.nodes hnodes
  obtain ⟨newNodes, hnewNodes, hsub, hkeys⟩ :=
    distinct_ofSends changeKey (hn.rising (by decide))
  obtain ⟨settledMaps, hsettledMaps, hm⟩ := debounce_ofSends Window.configMaps hmaps
  obtain ⟨settledRequests, hsettledRequests, hr⟩ :=
    debounce_ofSends Window.requests hrequests
  obtain ⟨combined, hcombined, hc⟩ := combine_ofSends
    ((hn.rising (by decide)).sublist hsub) (hm.rising (by decide)) (hr.rising (by decide))
  obtain ⟨ticks, hticks, ht⟩ := debounce_ofSends Window.together
    (hc.rising.imp Nat.le_of_lt)
  refine ⟨⟨settledNodes, newNodes, settledMaps, settledRequests, combined, ticks, hn, hsub, hkeys,
    hm, hr, hc, ht⟩, ?_⟩
  rw [← hticks, ← hcombined, ← hnewNodes, ← hsettledNodes, ← hsettledMaps, ← hsettledRequests]
  rfl

namespace Stages

variable (stages : Stages nodes configMaps requests)

theorem risingNodes : stages.newNodes.Pairwise (·.1 < ·.1) :=
  (stages.nodesSettle.rising (by decide)).sublist stages.newNodesSublist

theorem risingMaps : stages.settledMaps.Pairwise (·.1 < ·.1) :=
  stages.mapsSettle.rising (by decide)

theorem risingRequests : stages.settledRequests.Pairwise (·.1 < ·.1) :=
  stages.requestsSettle.rising (by decide)

/-- A tick is over what was newest when the last window began. -/
structure IsNewest (time : Nat) (nodes : List Node) (configMaps : List ConfigMap)
    (requests : List SigningRequest) : Prop where
  nodes : newest? stages.newNodes time = some nodes
  configMaps : newest? stages.settledMaps time = some configMaps
  requests : newest? stages.settledRequests time = some requests

theorem isNewest_of_combined {e : Nat × List Node × List ConfigMap × List SigningRequest}
    (he : e ∈ stages.combined) : stages.IsNewest e.1 e.2.1 e.2.2.1 e.2.2.2 := by
  obtain ⟨-, hn, hm, hr⟩ := (stages.combines.mem_iff _ _ _ _).mp he
  exact ⟨hn, hm, hr⟩

theorem isNewest_of_tick {tick : Nat × List Node × List ConfigMap × List SigningRequest}
    (htick : tick ∈ stages.ticks) :
    stages.IsNewest (tick.1 - Window.together) tick.2.1 tick.2.2.1 tick.2.2.2 := by
  obtain ⟨e, he, rfl⟩ := stages.settles.exists_send htick
  have hinstant : (later Window.together e).1 - Window.together = e.1 := Nat.add_sub_cancel _ _
  rw [hinstant]
  exact stages.isNewest_of_combined he

theorem exists_last_newNodes {last : Nat × List Node}
    (hlast : stages.settledNodes.getLast? = some last) :
    ∃ new, stages.newNodes.getLast? = some new ∧ changeKey new.2 = changeKey last.2 := by
  have hsettled := le_last (stages.nodesSettle.rising (by decide)) hlast
  have hkey := stages.sameKey last.1
  rw [latest?_of_forall_le hsettled, hlast,
    latest?_of_forall_le fun e he => hsettled e (stages.newNodesSublist.subset he)] at hkey
  exact Option.map_eq_some_iff.mp hkey

theorem newest?_settledNodes {time : Nat} {list : List Node}
    (h : newest? stages.newNodes time = some list) :
    ∃ settled, newest? stages.settledNodes time = some settled ∧
      changeKey list = changeKey settled := by
  obtain ⟨e, he, rfl⟩ := Option.map_eq_some_iff.mp h
  have hkey := stages.sameKey time
  rw [he, Option.map_some] at hkey
  obtain ⟨s, hs, heq⟩ := Option.map_eq_some_iff.mp hkey.symm
  exact ⟨s.2, by rw [newest?, hs]; rfl, heq.symm⟩

theorem newest?_ticks {time : Nat} (hnodes : nodes ≠ []) (hmaps : configMaps ≠ [])
    (hrequests : requests ≠ [])
    (hn : ∀ e ∈ nodes, e.1 + Window.nodes + Window.together ≤ time)
    (hm : ∀ e ∈ configMaps, e.1 + Window.configMaps + Window.together ≤ time)
    (hr : ∀ e ∈ requests, e.1 + Window.requests + Window.together ≤ time) :
    ∃ lastNodes lastMaps lastRequests list,
      nodes.getLast? = some lastNodes ∧ configMaps.getLast? = some lastMaps ∧
      requests.getLast? = some lastRequests ∧ changeKey list = changeKey lastNodes.2 ∧
      newest? stages.ticks time = some (list, lastMaps.2, lastRequests.2) := by
  obtain ⟨lastNodes, hlastNodes, hsettledNodes⟩ := stages.nodesSettle.exists_last hnodes
  obtain ⟨lastMaps, hlastMaps, hsettledMaps⟩ := stages.mapsSettle.exists_last hmaps
  obtain ⟨lastRequests, hlastRequests, hsettledRequests⟩ :=
    stages.requestsSettle.exists_last hrequests
  obtain ⟨new, hnew, hkey⟩ := stages.exists_last_newNodes hsettledNodes
  obtain ⟨instant, hlast, hinstant⟩ :=
    stages.combines.getLast? stages.risingNodes stages.risingMaps stages.risingRequests hnew
      hsettledMaps hsettledRequests
  refine ⟨lastNodes, lastMaps, lastRequests, new.2, hlastNodes, hlastMaps, hlastRequests, hkey, ?_⟩
  have hticks : stages.ticks.getLast? = some (instant + Window.together, new.2, lastMaps.2,
      lastRequests.2) := by
    rw [stages.settles.last, hlast]
    rfl
  have hdue : instant + Window.together ≤ time := by
    have hnewTime := le_last (stages.nodesSettle.rising (by decide)) hsettledNodes new
      (stages.newNodesSublist.subset (List.mem_of_getLast? hnew))
    have hn := hn lastNodes (List.mem_of_getLast? hlastNodes)
    have hm := hm lastMaps (List.mem_of_getLast? hlastMaps)
    have hr := hr lastRequests (List.mem_of_getLast? hlastRequests)
    simp only [later] at hnewTime hinstant
    omega
  have hrising := stages.settles.rising (by decide)
  rw [newest?_of_forall_le fun e he => Nat.le_trans (le_last hrising hticks e he) hdue, hticks]
  rfl

end Stages

/-- Nothing is ticked over before all three sources have been quiet once. No tick is over anything
older than the one before it, ticks are a second apart, and the last one is over the last of what
was sent. -/
structure KeepsUp (nodes : List (Nat × List Node)) (configMaps : List (Nat × List ConfigMap))
    (requests : List (Nat × List SigningRequest))
    (ticks : List (Nat × List Node × List ConfigMap × List SigningRequest)) : Prop where
  settled : ∀ tick ∈ ticks, HasSettled nodes Window.nodes tick.1 ∧
    HasSettled configMaps Window.configMaps tick.1 ∧ HasSettled requests Window.requests tick.1
  followsNodes : Follows nodes (ticks.map fun tick => (tick.1, tick.2.1))
  followsMaps : Follows configMaps (ticks.map fun tick => (tick.1, tick.2.2.1))
  followsRequests : Follows requests (ticks.map fun tick => (tick.1, tick.2.2.2))
  spaced : ticks.Pairwise fun tick next => tick.1 + 1000 ≤ next.1
  last : ∀ time, (∀ e ∈ nodes, e.1 + 1250 < time) → (∀ e ∈ configMaps, e.1 + 1250 < time) →
    (∀ e ∈ requests, e.1 + 1250 < time) →
    ∃ lastNodes lastMaps lastRequests list,
      nodes.getLast? = some lastNodes ∧ configMaps.getLast? = some lastMaps ∧
      requests.getLast? = some lastRequests ∧ changeKey list = changeKey lastNodes.2 ∧
      newest? ticks time = some (list, lastMaps.2, lastRequests.2)

theorem settle_keepsUp (hnodes : nodes.Pairwise (·.1 ≤ ·.1))
    (hmaps : configMaps.Pairwise (·.1 ≤ ·.1)) (hrequests : requests.Pairwise (·.1 ≤ ·.1))
    (hsomeNodes : nodes ≠ []) (hsomeMaps : configMaps ≠ []) (hsomeRequests : requests ≠ []) :
    KeepsUp nodes configMaps requests (ofSends nodes configMaps requests).settle.published := by
  obtain ⟨stages, hstages⟩ := exists_stages hnodes hmaps hrequests
  rw [hstages, published_ofSends]
  have htimes : stages.ticks.Pairwise (·.1 ≤ ·.1) :=
    (stages.settles.rising (by decide)).imp Nat.le_of_lt
  refine ⟨fun tick htick => ?_, ?_, ?_, ?_, stages.settles.spaced, fun time hn hm hr => ?_⟩
  · have hnewest := stages.isNewest_of_tick htick
    obtain ⟨settled, hsettled, -⟩ := stages.newest?_settledNodes hnewest.nodes
    have hle : tick.1 - Window.together ≤ tick.1 := Nat.sub_le _ _
    exact ⟨(stages.nodesSettle.hasSettled_of_newest? hsettled).mono hle,
      (stages.mapsSettle.hasSettled_of_newest? hnewest.configMaps).mono hle,
      (stages.requestsSettle.hasSettled_of_newest? hnewest.requests).mono hle⟩
  · refine follows_of_newest? Window.together (stages.newNodesSublist.trans stages.nodesSettle.sublist)
      stages.risingNodes (List.pairwise_map.mpr htimes) ?_
    exact List.forall_mem_map.mpr fun tick htick => (stages.isNewest_of_tick htick).nodes
  · refine follows_of_newest? Window.together stages.mapsSettle.sublist stages.risingMaps
      (List.pairwise_map.mpr htimes) ?_
    exact List.forall_mem_map.mpr fun tick htick => (stages.isNewest_of_tick htick).configMaps
  · refine follows_of_newest? Window.together stages.requestsSettle.sublist stages.risingRequests
      (List.pairwise_map.mpr htimes) ?_
    exact List.forall_mem_map.mpr fun tick htick => (stages.isNewest_of_tick htick).requests
  · refine stages.newest?_ticks hsomeNodes hsomeMaps hsomeRequests (fun e he => ?_)
      (fun e he => ?_) (fun e he => ?_)
    · have := hn e he
      simp only [Window.nodes, Window.together]
      omega
    · have := hm e he
      simp only [Window.configMaps, Window.together]
      omega
    · have := hr e he
      simp only [Window.requests, Window.together]
      omega

/-- A second node that comes before the first list has settled. -/
theorem settle_keepsUp_of_coalesced :
    let first : Node := { metadata := { name := some "a" } }
    let second : Node := { metadata := { name := some "b" } }
    let nodes := [(0, [first]), (200, [first, second])]
    let configMaps : List (Nat × List ConfigMap) := [(50, [])]
    let requests : List (Nat × List SigningRequest) := [(0, []), (600, [])]
    KeepsUp nodes configMaps requests (ofSends nodes configMaps requests).settle.published ∧
      (ofSends nodes configMaps requests).settle.published = [(1850, [first, second], [], [])] := by
  intro first second nodes configMaps requests
  exact ⟨settle_keepsUp (by decide) (by decide) (by decide) (by decide) (by decide) (by decide),
    by cbv⟩

end Sources

end TunnelFleet
