import TunnelFleet.Endpoint
import TunnelFleet.Proofs.Address.Text
import TunnelFleet.Proofs.Allocation.Search
import TunnelFleet.Proofs.Dict
import TunnelFleet.Proofs.Ledger.Basic
import TunnelFleet.Tick.NodeConfig

namespace TunnelFleet

theorem Endpoint.behind?_append {c : Char} {mark before rest : List Char} (h : c ∉ before) :
    behind? (c :: mark) (before ++ rest) = behind? (c :: mark) rest := by
  induction before with
  | nil => rfl
  | cons d ds ih =>
    obtain ⟨hc, hds⟩ := List.ne_and_not_mem_of_not_mem_cons h
    rw [List.cons_append, behind?, ih hds, if_neg]
    simp [hc]

theorem takeWhile_append_stop {stop : Char} {piece rest : List Char} (h : stop ∉ piece) :
    (piece ++ stop :: rest).takeWhile (· != stop) = piece := by
  induction piece with
  | nil => simp
  | cons c cs ih =>
    obtain ⟨hc, hcs⟩ := List.ne_and_not_mem_of_not_mem_cons h
    rw [List.cons_append, List.takeWhile_cons_of_pos (by simpa using Ne.symm hc), ih hcs]

/-- What stands in one of the texts of a config map behind a mark, up to the next stop. -/
def ConfigMap.passage? (m : ConfigMap) (key mark : String) (stop : Char) : Option String :=
  (m.value? key).bind fun text =>
    (Endpoint.behind? mark.toList text.toList).map fun rest =>
      String.ofList (rest.takeWhile (· != stop))

theorem ConfigMap.IsStoredAs.passage?_eq {sent stored : ConfigMap} (h : sent.IsStoredAs stored)
    (key mark : String) (stop : Char) :
    stored.passage? key mark stop = sent.passage? key mark stop := by
  rw [passage?, passage?, h.value?_eq]

namespace NodeConfig

def key? (m : ConfigMap) : Option String :=
  m.metadata.note? Names.publicKeyNote

def address? (m : ConfigMap) : Option String :=
  m.passage? Names.tunnelConfigKey "\nAddress = " '\n'

def routerKey? (m : ConfigMap) : Option String :=
  m.passage? Names.tunnelConfigKey "\nPublicKey = " '\n'

def subnet? (m : ConfigMap) : Option String :=
  m.passage? Names.ipamKey "\"subnet\":\"" '"'

/-- A config map says of a node what a row says of it. A router's key may reach over several lines,
which is why its text is given beside the line. -/
structure IsFor (row : Allocation) (m : ConfigMap) : Prop where
  key : key? m = some row.nodeKey
  address : address? m = some (row.nodeIP ++ "/32")
  routerKey : '\n' ∉ row.routerKey.toList → routerKey? m = some row.routerKey
  tunnel : ∃ rest, m.value? Names.tunnelConfigKey = some (
    "[Interface] # Our own node IP\nAddress = " ++ row.nodeIP ++
      "/32\n[Peer] # The cluster node/pod IP ranges\nPublicKey = " ++ row.routerKey ++
      "\nAllowedIPs = " ++ rest)
  subnet : subnet? m = some row.podNet

theorem IsFor.isStoredAs {row : Allocation} {sent stored : ConfigMap} (h : IsFor row sent)
    (hstored : sent.IsStoredAs stored) : IsFor row stored where
  key := (hstored.note?_eq _).trans h.key
  address := (hstored.passage?_eq _ _ _).trans h.address
  routerKey := fun hline => (hstored.passage?_eq _ _ _).trans (h.routerKey hline)
  tunnel := h.tunnel.imp fun _ hrest => (hstored.value?_eq _).trans hrest
  subnet := (hstored.passage?_eq _ _ _).trans h.subnet

theorem jsonChar_eq_singleton {c : Char} (h : Block.IsTextChar c) :
    Text.jsonChar c = String.singleton c := by
  have hlow : 32 ≤ c.toNat := by
    rcases h with h | rfl | rfl | rfl
    · simp only [Char.isDigit, Bool.and_eq_true, decide_eq_true_eq] at h
      exact Nat.le_trans (by decide) (UInt32.le_iff_toNat_le.mp h.1)
    all_goals decide
  have hne : ∀ d : Char, ¬ Block.IsTextChar d → c ≠ d := fun d hd heq => hd (heq ▸ h)
  have hquote := hne '"' (by simp [Block.IsTextChar])
  have hback := hne '\\' (by simp [Block.IsTextChar])
  have hcontrol : ∀ d : Char, d.toNat < 32 → c ≠ d := fun d hd heq => by subst heq; omega
  unfold Text.jsonChar
  rw [if_neg hquote, if_neg hback, if_neg (hcontrol _ (by decide)), if_neg (hcontrol _ (by decide)),
    if_neg (hcontrol _ (by decide)), if_neg (hcontrol _ (by decide)),
    if_neg (hcontrol _ (by decide)), if_neg (by omega), if_neg (by omega)]

theorem json_of_readable {s : String} {b : Block} (h : Block.ofText s = .ok b) :
    Text.json s = "\"" ++ s ++ "\"" := by
  have hchars : s.toList.map Text.jsonChar = s.toList.map String.singleton :=
    List.map_congr_left fun c hc => jsonChar_eq_singleton (Block.isTextChar_of_ofText h c hc)
  have hjoin : String.join (s.toList.map String.singleton) = s := by
    rw [← String.toList_inj, String.toList_join, List.flatMap_map]
    simp
  rw [Text.json, hchars, hjoin]

section Render

variable {name uid : String} {row : Allocation} {networking : Networking} {router : Router}

theorem isNamed_render {known : String} (h : known.toList.head? ≠ some 'n') :
    (render name uid row networking router).isNamed known = false := by
  have hne : Names.nodeConfig name ≠ known := by
    rintro rfl
    simp [Names.nodeConfig, Names.nodeConfigStem] at h
  exact beq_false_of_ne fun heq => hne (Option.some.inj heq)

theorem ownerName?_render : ownerName? (render name uid row networking router) = some name := by
  have hne : Names.publicKeyNote ≠ Names.purposeNote := by decide
  have hnote : (render name uid row networking router).metadata.note? Names.purposeNote =
      some Names.purposeNode := by
    simp [render, Meta.note?, Dict.get?_insert_of_ne _ _ hne]
  rw [ownerName?, if_pos hnote]
  rfl

theorem key?_render : key? (render name uid row networking router) = some row.nodeKey := by
  simp [key?, render, Meta.note?]

theorem value?_render_tunnel :
    (render name uid row networking router).value? Names.tunnelConfigKey =
      some (tunnelFile row networking router) := by
  have hne : Names.ipamKey ≠ Names.tunnelConfigKey := by decide
  simp [render, ConfigMap.value?, Dict.get?_insert_of_ne _ _ hne]

theorem value?_render_ipam :
    (render name uid row networking router).value? Names.ipamKey = some (ipam row) := by
  simp [render, ConfigMap.value?]

theorem tunnelFile_eq (row : Allocation) (networking : Networking) (router : Router) :
    ∃ rest, tunnelFile row networking router =
    "[Interface] # Our own node IP\nAddress = " ++ row.nodeIP ++
      "/32\n[Peer] # The cluster node/pod IP ranges\nPublicKey = " ++ row.routerKey ++
      "\nAllowedIPs = " ++ rest := by
  refine ⟨networking.nodeRange ++ "\nAllowedIPs = " ++ networking.podRange ++ "\nEndpoint = " ++
    router.endpoint ++ "\nPersistentKeepalive = 25\n", ?_⟩
  apply String.toList_inj.mp
  unfold tunnelFile
  simp only [String.toList_append, List.append_assoc, String.reduceToList, List.cons_append,
    List.nil_append]

theorem address?_render (h : row.IsReadable) :
    address? (render name uid row networking router) = some (row.nodeIP ++ "/32") := by
  obtain ⟨⟨b, hb⟩, -⟩ := h
  obtain ⟨rest, hrest⟩ := tunnelFile_eq row networking router
  have hline : '\n' ∉ row.nodeIP.toList ++ "/32".toList := by
    simp [Block.not_mem_of_ofText hb (show ¬ Block.IsTextChar '\n' by simp [Block.IsTextChar])]
  have hbehind : Endpoint.behind? "\nAddress = ".toList (tunnelFile row networking router).toList =
      some ((row.nodeIP.toList ++ "/32".toList) ++ '\n' ::
        ("[Peer] # The cluster node/pod IP ranges\nPublicKey = ".toList ++ row.routerKey.toList ++
          "\nAllowedIPs = ".toList ++ rest.toList)) := by
    rw [hrest]
    simp [Endpoint.behind?]
  rw [address?, ConfigMap.passage?, value?_render_tunnel, Option.bind_some, hbehind,
    Option.map_some, takeWhile_append_stop hline, String.ofList_append, String.ofList_toList,
    String.ofList_toList]

theorem routerKey?_render (h : row.IsReadable) (hline : '\n' ∉ row.routerKey.toList) :
    routerKey? (render name uid row networking router) = some row.routerKey := by
  obtain ⟨⟨b, hb⟩, -⟩ := h
  obtain ⟨rest, hrest⟩ := tunnelFile_eq row networking router
  have hbefore : '\n' ∉ row.nodeIP.toList :=
    Block.not_mem_of_ofText hb (by simp [Block.IsTextChar])
  have hbehind : Endpoint.behind? "\nPublicKey = ".toList
      (tunnelFile row networking router).toList =
      some (row.routerKey.toList ++ '\n' :: ("AllowedIPs = ".toList ++ rest.toList)) := by
    -- the address holds no line feed, so the mark is not met before its line ends
    have hskip (tail : List Char) : Endpoint.behind? "\nPublicKey = ".toList
        (row.nodeIP.toList ++ tail) = Endpoint.behind? "\nPublicKey = ".toList tail :=
      Endpoint.behind?_append hbefore
    have hfront (tail : List Char) : Endpoint.behind? "\nPublicKey = ".toList
        ("[Interface] # Our own node IP\nAddress = ".toList ++ tail) =
        Endpoint.behind? "\nPublicKey = ".toList tail := by
      simp [Endpoint.behind?]
    rw [hrest]
    simp only [String.toList_append, List.append_assoc]
    rw [hfront, hskip]
    simp [Endpoint.behind?]
  rw [routerKey?, ConfigMap.passage?, value?_render_tunnel, Option.bind_some, hbehind,
    Option.map_some, takeWhile_append_stop hline, String.ofList_toList]

theorem subnet?_render (h : row.IsReadable) :
    subnet? (render name uid row networking router) = some row.podNet := by
  obtain ⟨-, b, hb⟩ := h
  have hquote : '"' ∉ row.podNet.toList :=
    Block.not_mem_of_ofText hb (by simp [Block.IsTextChar])
  have hbehind : Endpoint.behind? "\"subnet\":\"".toList (ipam row).toList =
      some (row.podNet.toList ++
        '"' :: ",\"routes\":[\x7b\"dst\":\"0.0.0.0/0\"\x7d]\x7d".toList) := by
    unfold ipam
    simp only [json_of_readable hb, String.toList_append, List.append_assoc, String.reduceToList,
      List.cons_append, List.nil_append]
    rfl
  rw [subnet?, ConfigMap.passage?, value?_render_ipam, Option.bind_some, hbehind, Option.map_some,
    takeWhile_append_stop hquote, String.ofList_toList]

theorem isFor_render (h : row.IsReadable) : IsFor row (render name uid row networking router) where
  key := key?_render
  address := address?_render h
  routerKey := routerKey?_render h
  tunnel := (tunnelFile_eq row networking router).imp fun _ hrest =>
    value?_render_tunnel.trans (congrArg some hrest)
  subnet := subnet?_render h

end Render

end NodeConfig

end TunnelFleet
