import TunnelFleet.Cluster
import TunnelFleet.Proofs.Ledger.Traffic

namespace TunnelFleet

namespace Ledger

def refuse {α : Type} (refusal : Refusal) (l : Ledger) : Except ClusterFault α × Ledger :=
  (.error (.refused refusal), l)

def numbered (l : Ledger) (m : ConfigMap) : ConfigMap :=
  m.withVersion (l.versions.length + 1)

def store (l : Ledger) (m : ConfigMap) : Except ClusterFault ConfigMap × Ledger :=
  if h : m.isNamed Names.allocations = true ∧
      ∀ n ∈ l.versions, (l.numbered m).metadata.resourceVersion ≠ n.metadata.resourceVersion then
    (.ok (l.numbered m), {
      versions := l.numbered m :: l.versions
      published := l.published
      named := List.forall_mem_cons.mpr ⟨h.1, l.named⟩
      distinct := List.pairwise_cons.mpr ⟨h.2, l.distinct⟩ })
  else refuse (.conflict Names.allocations) l

def create (l : Ledger) (m : ConfigMap) : Except ClusterFault ConfigMap × Ledger :=
  if m.isNamed Names.allocations then
    if l.versions = [] then l.store m else refuse (.alreadyExists Names.allocations) l
  else (.ok m, { l with published := m :: l.published })

def replace (l : Ledger) (m : ConfigMap) : Except ClusterFault ConfigMap × Ledger :=
  if m.isNamed Names.allocations then
    if l.current?.any fun old => old.metadata.resourceVersion == m.metadata.resourceVersion then
      l.store m
    else refuse (.conflict Names.allocations) l
  else (.ok m, l)

def answer (l : Ledger) : (call : Call) → Except ClusterFault call.Reply × Ledger
  | .create m => l.create m
  | .replace m => l.replace m
  | .annotate _ _ => (.ok (), l)
  | .approve _ => (.ok (), l)

theorem store_cases (l : Ledger) (m : ConfigMap) :
    (∃ after : Ledger, l.store m = (.ok (l.numbered m), after) ∧
      after.versions = l.numbered m :: l.versions ∧ after.published = l.published) ∨
    l.store m = refuse (.conflict Names.allocations) l := by
  unfold store
  split
  · exact .inl ⟨_, rfl, rfl, rfl⟩
  · exact .inr rfl

theorem isStoredAs_numbered (l : Ledger) (m : ConfigMap) : m.IsStoredAs (l.numbered m) :=
  ⟨rfl, rfl, rfl⟩

theorem answers_create (l : Ledger) (m : ConfigMap) :
    l.Answers (.create m) (l.create m) := by
  unfold create
  split
  next hnamed =>
    split
    next hnone =>
      rcases l.store_cases m with ⟨after, hstore, hversions, hpublished⟩ | hstore
      · rw [hstore]
        refine ⟨l.isStoredAs_numbered m, ?_⟩
        rw [if_pos hnamed]
        exact ⟨hnone, hnone ▸ hversions, hpublished⟩
      · rw [hstore]
        exact .inl rfl
    next => exact .inl rfl
  next hnamed =>
    refine ⟨⟨rfl, rfl, rfl⟩, ?_⟩
    rw [if_neg hnamed]
    exact ⟨rfl, rfl⟩

theorem answers_replace (l : Ledger) (m : ConfigMap) :
    l.Answers (.replace m) (l.replace m) := by
  unfold replace
  split
  next hnamed =>
    split
    next hcarried =>
      obtain ⟨old, hold, hsame⟩ := (Option.any_eq_true _ _).mp hcarried
      rcases l.store_cases m with ⟨after, hstore, hversions, hpublished⟩ | hstore
      · rw [hstore]
        refine ⟨l.isStoredAs_numbered m, ?_⟩
        rw [if_pos hnamed]
        exact ⟨⟨old, hold, eq_of_beq hsame⟩, hversions, hpublished⟩
      · rw [hstore]
        exact .inl rfl
    next => exact .inl rfl
  next hnamed =>
    refine ⟨⟨rfl, rfl, rfl⟩, ?_⟩
    rw [if_neg hnamed]

theorem answers_answer (l : Ledger) (call : Call) : l.Answers call (l.answer call) := by
  cases call with
  | create m => exact l.answers_create m
  | replace m => exact l.answers_replace m
  | annotate node notes => rfl
  | approve request => rfl

theorem before_of_answers {l : Ledger} {call : Call} {answer : Except ClusterFault call.Reply × Ledger}
    (h : l.Answers call answer) : l.Before answer.2 := by
  obtain ⟨fault | reply, after⟩ := answer
  · obtain rfl | ⟨reply, haccepts⟩ := h
    · exact .refl _
    · exact before_of_accepts haccepts
  · exact before_of_accepts h

theorem before_step (l : Ledger) (tick : Tick Report) : l.Before (tick.step answer l).2 := by
  cases tick with
  | done value => exact .refl l
  | fail failure => exact .refl l
  | ask call next =>
    have hbefore := before_of_answers (l.answers_answer call)
    rw [Tick.step]
    split
    next heq => rwa [heq] at hbefore
    next heq => rwa [heq] at hbefore

end Ledger

namespace Traffic

def begin (t : Traffic) (snapshot : Snapshot) : Traffic :=
  { t with ticks := t.ticks ++ [reconcile { seconds := 0 } snapshot] }

def advance (t : Traffic) (i : Nat) : Traffic :=
  match t.ticks[i]? with
  | none => t
  | some tick =>
      ⟨(tick.step Ledger.answer t.ledger).2, t.ticks.set i (tick.step Ledger.answer t.ledger).1⟩

theorem before_advance (t : Traffic) (i : Nat) : t.ledger.Before (t.advance i).ledger := by
  unfold advance
  split
  · exact .refl _
  · exact t.ledger.before_step _

variable {view : Ledger → Snapshot → Prop} {start t : Traffic}

theorem ReachOver.begin (h : ReachOver view start t) {snapshot : Snapshot}
    (hview : view t.ledger snapshot) : ReachOver view start (t.begin snapshot) :=
  .next h (.begin _ hview)

theorem ReachOver.advance (h : ReachOver view start t) (i : Nat) : ReachOver view start (t.advance i) := by
  unfold Traffic.advance
  split
  · exact h
  next tick htick => exact .next h (.call htick t.ledger.answers_answer)

theorem ReachOver.schedule (h : ReachOver view start t) (order : List Nat) :
    ReachOver view start (order.foldl Traffic.advance t) := by
  induction order generalizing t with
  | nil => exact h
  | cons i rest ih => exact ih (h.advance i)

end Traffic

namespace Snapshot

def smallCluster : ConfigMap where
  metadata := { name := some Names.clusterConfig, nameSpace := some Names.fleetNamespace }
  data := some (Dict.empty.insert Names.networkingKey
    ("NodeRange = 10.1.0.0/16\nWireguardMode = SelfProvision\n[Router]\nPublicKey = R\n" ++
      "Endpoint = r:1\nNodePool = 10.1.0.0/24\nPodPool = 10.2.0.0/16\nPodPrefixLen = 24\n"))

def fullCluster : ConfigMap :=
  { smallCluster with data := some (Dict.empty.insert Names.networkingKey
      ("NodeRange = 10.1.0.0/16\nWireguardMode = SelfProvision\n[Router]\nPublicKey = R\n" ++
        "Endpoint = r:1\nNodePool = 10.1.0.0/31\nPodPool = 10.2.0.0/16\nPodPrefixLen = 24\n")) }

def small (name key : String) : Snapshot where
  nodes := [{ metadata := {
    name := some name
    uid := some "1"
    annotations := some ((Dict.empty.insert Names.clusterConfigNote smallCluster.metadata.path).insert
      Names.publicKeyNote key) } }]
  configMaps := [smallCluster]
  requests := []

theorem routers_smallCluster {networking : Networking}
    (h : Reconcile.networking? smallCluster = .ok (some networking)) :
    networking.routers = [⟨"R", "r:1", "10.1.0.0/24", "10.2.0.0/16", 24⟩] := by
  have hrouters : (Reconcile.networking? smallCluster).toOption.map (·.map Networking.routers) =
      some (some [⟨"R", "r:1", "10.1.0.0/24", "10.2.0.0/16", 24⟩]) := by decide +kernel
  rw [h] at hrouters
  exact Option.some.inj (Option.some.inj hrouters)

def seen (l : Ledger) (name key : String) : Snapshot :=
  { small name key with configMaps := smallCluster :: l.current?.toList }

theorem mem_versions_of_seen {l : Ledger} {m : ConfigMap}
    (h : (smallCluster :: l.current?.toList).find? (fun m => m.isNamed Names.allocations) = some m) :
    m ∈ l.versions := by
  rw [List.find?_cons_of_neg (by decide)] at h
  exact List.mem_of_head? (Option.mem_toList.mp (List.mem_of_find?_eq_some h))

theorem isView_seen {vetting : Vetting} {l after : Ledger} (h : l.Before after) {name key : String}
    (hkey : vetting.key key) (hname : vetting.name name) (hrouter : vetting.router "R") :
    (seen l name key).IsView vetting after where
  table := fun m hm => h.shows (Ledger.shows_of_mem (mem_versions_of_seen hm))
  key := by
    intro node hnode found hfound
    obtain rfl := List.mem_singleton.mp hnode
    have hnote : key = found := by simpa [Meta.note?] using hfound
    exact hnote ▸ hkey
  name := by
    intro node hnode found hfound
    obtain rfl := List.mem_singleton.mp hnode
    exact Option.some.inj hfound ▸ hname
  router := by
    intro cluster networking hcluster hnetworking router hmem
    have hfind : (smallCluster :: l.current?.toList).find?
        (fun m => m.isNamed Names.clusterConfig) = some smallCluster :=
      List.find?_cons_of_pos (by decide)
    obtain rfl := Option.some.inj (hfind.symm.trans hcluster)
    rw [routers_smallCluster hnetworking, List.mem_singleton] at hmem
    exact hmem ▸ hrouter

end Snapshot

namespace Traffic

def idle : Traffic where
  ledger := {
    versions := []
    published := []
    named := List.forall_mem_nil _
    distinct := .nil }
  ticks := []

def small (name key : String) (calls : Nat) : Traffic :=
  (List.replicate calls 0).foldl advance (idle.begin (.seen idle.ledger name key))

theorem small_succ (name key : String) (calls : Nat) :
    small name key (calls + 1) = (small name key calls).advance 0 := by
  rw [small, List.replicate_succ', List.foldl_append]
  rfl

theorem reachOver_small {name key : String} (hview : view idle.ledger (.seen idle.ledger name key))
    (calls : Nat) : ReachOver view idle (small name key calls) :=
  (ReachOver.start.begin hview).schedule _

theorem reach_small {vetting : Vetting} {name key : String} (hkey : vetting.key key)
    (hname : vetting.name name) (hrouter : vetting.router "R") (calls : Nat) :
    Reach vetting idle (small name key calls) :=
  reachOver_small (Snapshot.isView_seen (.refl _) hkey hname hrouter) calls

/-- A second controller begins with what it saw before the first one stored the row of its node,
and its own row is refused. -/
def overtaken : Traffic :=
  ((small "n" "K" 2).begin (.seen (small "n" "K" 1).ledger "m" "L")).advance 1

/-- The second controller begins again, and both go on by turns. -/
def rivals : Traffic :=
  [2, 0, 2].foldl advance (overtaken.begin (.seen overtaken.ledger "m" "L"))

theorem reachOver_rivals (hfirst : view idle.ledger (.seen idle.ledger "n" "K"))
    (hsecond : ∀ l after, l.Before after → view after (.seen l "m" "L")) :
    ReachOver view idle rivals := by
  have hbefore : (small "n" "K" 1).ledger.Before (small "n" "K" 2).ledger := by
    rw [small_succ "n" "K" 1]
    exact before_advance _ 0
  have hovertaken : ReachOver view idle overtaken :=
    ((reachOver_small hfirst 2).begin (hsecond _ _ hbefore)).advance 1
  exact (hovertaken.begin (hsecond _ _ (.refl _))).schedule _

theorem reach_rivals : Reach .unix idle rivals := by
  have hrouter : Text.IsUnix "R" := Text.isUnix_of_not_mem (by decide)
  refine reachOver_rivals (Snapshot.isView_seen (.refl _) ?_ ?_ hrouter)
    fun l after h => Snapshot.isView_seen h ?_ ?_ hrouter
  all_goals exact Text.isUnix_of_not_mem (by decide)

theorem overtaken_refused : overtaken.ticks[1]?.bind Tick.result? =
    some (.error (.cluster (.refused (.conflict Names.allocations)))) := by decide +kernel

theorem rivals_apart :
    rivals.ledger.table.toOption = some ⟨[⟨"K", "R", "n", "10.1.0.1", "10.2.1.0/24"⟩,
      ⟨"L", "R", "m", "10.1.0.2", "10.2.2.0/24"⟩]⟩ ∧
    rivals.ledger.published.map NodeConfig.address? = [some "10.1.0.2/32", some "10.1.0.1/32"] := by
  -- both at once, so that the run is evaluated only once
  have hends : (rivals.ledger.table.toOption,
      rivals.ledger.published.map NodeConfig.address?) =
      (some ⟨[⟨"K", "R", "n", "10.1.0.1", "10.2.1.0/24"⟩,
        ⟨"L", "R", "m", "10.1.0.2", "10.2.2.0/24"⟩]⟩,
      [some "10.1.0.2/32", some "10.1.0.1/32"]) := by decide +kernel
  exact Prod.mk.inj hends

end Traffic

end TunnelFleet
