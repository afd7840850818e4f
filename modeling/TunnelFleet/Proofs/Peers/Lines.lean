import TunnelFleet.Peers.Snapshot
import TunnelFleet.Proofs.Address.Text
import TunnelFleet.Proofs.Allocation.Search

namespace TunnelFleet

section FlatMap

variable {α β : Type}

theorem length_le_length_flatMap (f : α → β) (g : α → List β) (as : List α) :
    as.length ≤ (as.flatMap fun a => f a :: g a).length := by
  induction as with
  | nil => exact Nat.le_refl _
  | cons a rest ih =>
    rw [List.flatMap_cons, List.length_cons, List.length_append, List.length_cons]
    omega

theorem flatMap_cons_eq_map_iff {f : α → β} {g : α → List β} {as : List α} :
    (as.flatMap fun a => f a :: g a) = as.map f ↔ ∀ a ∈ as, g a = [] := by
  induction as with
  | nil => simp
  | cons a rest ih =>
    rw [List.flatMap_cons, List.map_cons, List.cons_append, List.cons_inj_right,
      List.forall_mem_cons]
    constructor
    · intro h
      have hlength := congrArg List.length h
      rw [List.length_append, List.length_map] at hlength
      have hrest := length_le_length_flatMap f g rest
      have hnil : g a = [] := List.eq_nil_of_length_eq_zero (by omega)
      rw [hnil, List.nil_append] at h
      exact ⟨hnil, ih.mp h⟩
    · rintro ⟨hnil, hrest⟩
      rw [hnil, List.nil_append, ih.mpr hrest]

end FlatMap

namespace Text

def linesFrom (mark s : String) : List String :=
  ((splitAt '\n' s.toList).filter mark.toList.isPrefixOf).map String.ofList

def furtherLinesFrom (mark s : String) : List String :=
  ((splitAt '\n' s.toList).tail.filter mark.toList.isPrefixOf).map String.ofList

theorem linesFrom_append_line (mark a b : String) :
    linesFrom mark (a ++ "\n" ++ b) = linesFrom mark a ++ linesFrom mark b := by
  have hsplit : splitAt '\n' (a ++ "\n" ++ b).toList =
      splitAt '\n' a.toList ++ splitAt '\n' b.toList := by
    rw [String.toList_append, String.toList_append, List.append_assoc]
    exact splitAt_append_separator '\n' _ _
  rw [linesFrom, hsplit, List.filter_append, List.map_append, linesFrom, linesFrom]

theorem linesFrom_of_line {mark s : String} (h : '\n' ∉ s.toList) :
    linesFrom mark s = if mark.toList.isPrefixOf s.toList then [s] else [] := by
  rw [linesFrom, splitAt_of_not_mem h, List.filter_cons]
  split
  · simp
  · simp

theorem furtherLinesFrom_of_line (mark : String) {s : String} (h : '\n' ∉ s.toList) :
    furtherLinesFrom mark s = [] := by
  rw [furtherLinesFrom, splitAt_of_not_mem h]
  rfl

theorem linesFrom_append_of_not_prefix {mark front : String} (s : String)
    (hline : '\n' ∉ front.toList)
    (hfront : ∀ first, mark.toList.isPrefixOf (front.toList ++ first) = false) :
    linesFrom mark (front ++ s) = furtherLinesFrom mark s := by
  obtain ⟨first, rest, hs, happend⟩ := splitAt_append_of_not_mem s.toList hline
  rw [linesFrom, String.toList_append, happend, furtherLinesFrom, hs, List.tail_cons,
    List.filter_cons_of_neg (by simp [hfront first])]

end Text

namespace Allocation

def peerLine (row : Allocation) : String :=
  "[Peer] # " ++ row.nodeName

def nodeRoute (row : Allocation) : String :=
  "AllowedIPs = " ++ row.nodeIP ++ "/32 # node"

def podRoute (row : Allocation) : String :=
  "AllowedIPs = " ++ row.podNet ++ " # pods"

theorem peerBlock_eq (row : Allocation) : row.peerBlock =
    row.peerLine ++ "\n" ++ (("PublicKey = " ++ row.nodeKey) ++ "\n" ++
      (row.nodeRoute ++ "\n" ++ (row.podRoute ++ "\n"))) := by
  apply String.toList_inj.mp
  unfold peerBlock peerLine nodeRoute podRoute
  simp only [String.toList_append, List.append_assoc, String.reduceToList, List.cons_append,
    List.nil_append]

theorem linesFrom_peerBlock_append (mark : String) (row : Allocation) (rest : String) :
    Text.linesFrom mark (row.peerBlock ++ rest) =
      Text.linesFrom mark row.peerLine ++ (Text.linesFrom mark ("PublicKey = " ++ row.nodeKey) ++
        (Text.linesFrom mark row.nodeRoute ++ (Text.linesFrom mark row.podRoute ++
          Text.linesFrom mark rest))) := by
  have hblock : row.peerBlock ++ rest = row.peerLine ++ "\n" ++ (("PublicKey = " ++ row.nodeKey) ++
      "\n" ++ (row.nodeRoute ++ "\n" ++ (row.podRoute ++ "\n" ++ rest))) := by
    rw [peerBlock_eq]
    simp only [String.append_assoc]
  rw [hblock, Text.linesFrom_append_line, Text.linesFrom_append_line, Text.linesFrom_append_line,
    Text.linesFrom_append_line]

/-- A row none of whose parts but the key can begin a line of its own. -/
structure IsOneLine (row : Allocation) : Prop where
  nodeName : '\n' ∉ row.nodeName.toList
  nodeIP : '\n' ∉ row.nodeIP.toList
  podNet : '\n' ∉ row.podNet.toList

theorem IsOneLine.peerLine {row : Allocation} (h : row.IsOneLine) :
    '\n' ∉ row.peerLine.toList := by
  simp [Allocation.peerLine, h.nodeName]

theorem IsOneLine.nodeRoute {row : Allocation} (h : row.IsOneLine) :
    '\n' ∉ row.nodeRoute.toList := by
  simp [Allocation.nodeRoute, h.nodeIP]

theorem IsOneLine.podRoute {row : Allocation} (h : row.IsOneLine) :
    '\n' ∉ row.podRoute.toList := by
  simp [Allocation.podRoute, h.podNet]

theorem linesFrom_join {mark : String}
    (hmark : ∀ first, mark.toList.isPrefixOf ("PublicKey = ".toList ++ first) = false)
    {rows : List Allocation} (h : ∀ row ∈ rows, row.IsOneLine) :
    Text.linesFrom mark (String.join (rows.map peerBlock)) = rows.flatMap fun row =>
      [row.peerLine].filter (mark.toList.isPrefixOf ·.toList) ++
        (Text.furtherLinesFrom mark row.nodeKey ++
          [row.nodeRoute, row.podRoute].filter (mark.toList.isPrefixOf ·.toList)) := by
  induction rows with
  | nil =>
    have hne : mark.toList.isPrefixOf "".toList = false := by
      cases hchars : mark.toList with
      | nil => simp [hchars] at hmark
      | cons c cs => rfl
    rw [List.map_nil, String.join_nil, Text.linesFrom_of_line (by simp), hne]
    rfl
  | cons row rest ih =>
    obtain ⟨hrow, hrest⟩ := List.forall_mem_cons.mp h
    rw [List.map_cons, String.join_cons, linesFrom_peerBlock_append, ih hrest,
      Text.linesFrom_of_line hrow.peerLine, Text.linesFrom_of_line hrow.nodeRoute,
      Text.linesFrom_of_line hrow.podRoute,
      Text.linesFrom_append_of_not_prefix row.nodeKey (by decide) hmark, List.flatMap_cons]
    simp only [List.filter_cons, List.filter_nil, List.append_assoc]
    split <;> split <;> rfl

theorem peers_join {rows : List Allocation} (h : ∀ row ∈ rows, row.IsOneLine) :
    Text.linesFrom "[Peer]" (String.join (rows.map peerBlock)) =
      rows.flatMap fun row => row.peerLine :: Text.furtherLinesFrom "[Peer]" row.nodeKey := by
  rw [linesFrom_join (fun _ => rfl) h]
  simp [peerLine, nodeRoute, podRoute]

theorem routes_join {rows : List Allocation} (h : ∀ row ∈ rows, row.IsOneLine) :
    Text.linesFrom "AllowedIPs" (String.join (rows.map peerBlock)) = rows.flatMap fun row =>
      Text.furtherLinesFrom "AllowedIPs" row.nodeKey ++ [row.nodeRoute, row.podRoute] := by
  rw [linesFrom_join (fun _ => rfl) h]
  simp [peerLine, nodeRoute, podRoute]

def IsRouteOf (rows : List Allocation) (line : String) : Prop :=
  ∃ row ∈ rows, line = row.nodeRoute ∨ line = row.podRoute

/-- Each of some rows begins one peer of a text, and nothing else is routed there. -/
structure KeepsToRows (rows : List Allocation) (text : String) : Prop where
  peers : Text.linesFrom "[Peer]" text = rows.map peerLine
  routes : ∀ line ∈ Text.linesFrom "AllowedIPs" text, IsRouteOf rows line

/-- A key that begins no peer behind its first line and routes nothing else there. -/
structure IsContained (rows : List Allocation) (key : String) : Prop where
  peers : Text.furtherLinesFrom "[Peer]" key = []
  routes : ∀ line ∈ Text.furtherLinesFrom "AllowedIPs" key, IsRouteOf rows line

theorem isContained_of_line (rows : List Allocation) {key : String} (h : '\n' ∉ key.toList) :
    IsContained rows key where
  peers := Text.furtherLinesFrom_of_line _ h
  routes := by
    rw [Text.furtherLinesFrom_of_line _ h]
    exact List.forall_mem_nil _

/-- The lines of a text that begin a peer or route addresses are those of some rows, with whatever
further lines the keys bring along. Keys of one line bring none. -/
structure AreLinesOf (rows : List Allocation) (text : String) : Prop where
  peers : Text.linesFrom "[Peer]" text =
    rows.flatMap fun row => row.peerLine :: Text.furtherLinesFrom "[Peer]" row.nodeKey
  routes : Text.linesFrom "AllowedIPs" text = rows.flatMap fun row =>
    Text.furtherLinesFrom "AllowedIPs" row.nodeKey ++ [row.nodeRoute, row.podRoute]
  peers_of_line : (∀ row ∈ rows, '\n' ∉ row.nodeKey.toList) →
    Text.linesFrom "[Peer]" text = rows.map peerLine
  routes_of_line : (∀ row ∈ rows, '\n' ∉ row.nodeKey.toList) →
    Text.linesFrom "AllowedIPs" text = rows.flatMap fun row => [row.nodeRoute, row.podRoute]
  keepsToRows_iff : KeepsToRows rows text ↔ ∀ row ∈ rows, IsContained rows row.nodeKey

theorem keepsToRows_join_iff {rows : List Allocation} (h : ∀ row ∈ rows, row.IsOneLine) :
    KeepsToRows rows (String.join (rows.map peerBlock)) ↔
      ∀ row ∈ rows, IsContained rows row.nodeKey := by
  constructor
  · rintro ⟨hpeers, hroutes⟩ row hrow
    rw [peers_join h, flatMap_cons_eq_map_iff] at hpeers
    rw [routes_join h] at hroutes
    exact ⟨hpeers row hrow, fun line hline =>
      hroutes line (List.mem_flatMap.mpr ⟨row, hrow, List.mem_append_left _ hline⟩)⟩
  · intro hkeys
    refine ⟨?_, fun line hline => ?_⟩
    · rw [peers_join h, flatMap_cons_eq_map_iff]
      exact fun row hrow => (hkeys row hrow).peers
    · rw [routes_join h] at hline
      obtain ⟨row, hrow, hline⟩ := List.mem_flatMap.mp hline
      rcases List.mem_append.mp hline with hline | hline
      · exact (hkeys row hrow).routes line hline
      · exact ⟨row, hrow, by simpa using hline⟩

theorem areLinesOf_join {rows : List Allocation} (h : ∀ row ∈ rows, row.IsOneLine) :
    AreLinesOf rows (String.join (rows.map peerBlock)) where
  peers := peers_join h
  routes := routes_join h
  peers_of_line hkeys :=
    ((keepsToRows_join_iff h).mpr fun row hrow => isContained_of_line rows (hkeys row hrow)).peers
  routes_of_line hkeys := by
    have hrow : ∀ row ∈ rows, Text.furtherLinesFrom "AllowedIPs" row.nodeKey ++
        [row.nodeRoute, row.podRoute] = [row.nodeRoute, row.podRoute] :=
      fun row hrow => by rw [Text.furtherLinesFrom_of_line _ (hkeys row hrow), List.nil_append]
    rw [routes_join h, List.flatMap_congr hrow]
  keepsToRows_iff := keepsToRows_join_iff h

end Allocation

end TunnelFleet
