import TunnelFleet.Proofs.Tick.ChangeKey
import TunnelFleet.Proofs.Tick.Convergence
import TunnelFleet.Timeline.Basic

namespace TunnelFleet

theorem Node.note?_of_not_isStale {node : Node} {clusterPath : String} {nodePath : Option String}
    (h : node.isStale clusterPath nodePath = false) :
    node.metadata.note? Names.clusterConfigNote = some clusterPath := by
  have hcluster := (Bool.or_eq_false_iff.mp h).1
  simpa using hcluster

theorem NodeKey.quietNotes_eq_of_changeKey {nodes others : List Node} {node other : Node}
    {name : String} (hkey : changeKey nodes = changeKey others)
    (hnames : (others.filterMap (·.metadata.name)).Nodup) (hnode : node ∈ nodes)
    (hother : other ∈ others) (hname : node.metadata.name = some name)
    (hotherName : other.metadata.name = some name) :
    quietNotes node.metadata = quietNotes other.metadata := by
  have hmem : ofNode node ∈ (nodes.map ofNode).filter (·.name == some name) :=
    List.mem_filter.mpr ⟨List.mem_map_of_mem hnode, by simp [ofNode, hname]⟩
  rw [← filter_changeKey, hkey, filter_changeKey] at hmem
  obtain ⟨found, hfound, heq⟩ := List.mem_map.mp (List.mem_filter.mp hmem).1
  obtain ⟨hfoundName, hnotes, -⟩ := NodeKey.mk.inj heq
  obtain ⟨before, after, rfl⟩ := List.append_of_mem hother
  obtain ⟨hbefore, hafter⟩ := name_ne_of_nodup (fun n : Node => n.metadata.name) hnames hotherName
  have hsame : found.metadata.name = some name := hfoundName.trans hname
  rcases List.mem_append.mp hfound with hfound | hfound
  · exact absurd hsame (hbefore found hfound)
  · rcases List.mem_cons.mp hfound with rfl | hfound
    · exact hnotes.symm
    · exact absurd hsame (hafter found hfound)

namespace Cluster

open Reconcile

variable {t : Terms} {c mid : Cluster} {node : Node} {name uid key : String} {made : List Call}

theorem Extends.not_mem_annotate (h : c.Extends t key made mid) (name : String)
    (notes : Dict String) : .annotate name notes ∉ made := by
  cases h with
  | found => exact List.not_mem_nil
  | stored => simp

theorem Served.stale_of_mem {after : Cluster} {other : String}
    (h : c.Served t node name uid made after)
    (hmem : .annotate other (pathNotes t.clusterPath none) ∈ made) :
    other = name ∧ node.metadata.note? Names.clusterConfigNote ≠ some t.clusterPath := by
  cases h with
  | announced hdecision =>
    obtain ⟨rfl, hnotes⟩ := Call.annotate.inj (List.mem_singleton.mp hmem)
    have hstale := (Node.of_decide_announce hdecision).1
    cases hpath : NodeConfig.path? c.configMaps other with
    | none =>
      rw [hpath] at hstale
      exact ⟨rfl, by simpa [Node.isStale] using hstale⟩
    | some path =>
      rw [hpath] at hnotes
      exact absurd hnotes.symm (pathNotes_some_ne_none _ _)
  | @provided _ _ _ m row networking router version hdecision hext hm =>
    rcases List.mem_append.mp hmem with hmem | hmem
    · exact absurd hmem (hext.not_mem_annotate _ _)
    · have hnotes : pathNotes t.clusterPath none =
          pathNotes t.clusterPath (some m.metadata.path) := by
        have hlast := (List.mem_cons.mp hmem).resolve_left (by intro heq; cases heq)
        exact (Call.annotate.inj (List.mem_singleton.mp hlast)).2
      exact absurd hnotes.symm (pathNotes_some_ne_none _ _)
  | rests => cases hmem

end Cluster

namespace Reconcile

open Cluster

variable {σ : Type} {answers : Tick.Answers σ} {view : σ → Cluster} {s after : σ}
  {made before : List Call} {setting : Setting} {start : Cluster} {done todo : List Node}
  {progress result : Progress}

theorem Pass.exists_stale_of_mem (hcarries : Carries answers view)
    (hpass : Pass setting start (view s) before done todo progress)
    (h : Tick.Ran answers (Reconcile.visitAll setting todo progress) s made result after)
    {name : String}
    (hmem : .annotate name (pathNotes setting.clusterPath none) ∈ made) :
    ∃ node ∈ todo, node.metadata.name = some name ∧
      node.metadata.note? Names.clusterConfigNote ≠ some setting.clusterPath := by
  induction todo generalizing s before done progress made with
  | nil =>
    obtain ⟨rfl, -, -⟩ := h.of_pure
    cases hmem
  | cons node rest ih =>
    obtain ⟨calls, visited, mid, others, rfl, hvisit, hothers⟩ := h.of_bind
    obtain ⟨⟨served, hnext⟩, -⟩ := hpass.visit hcarries hvisit
    rcases List.mem_append.mp hmem with hmem | hmem
    · by_cases hnamed : node.metadata.name.isSome = true ∧ node.metadata.uid.isSome = true
      · obtain ⟨own, hown⟩ := Option.isSome_iff_exists.mp hnamed.1
        obtain ⟨uid, huid⟩ := Option.isSome_iff_exists.mp hnamed.2
        obtain ⟨_, group, _, hserved, rfl, -⟩ := hpass.ran_visit hcarries hown huid hvisit
        have hgroup : .annotate name (pathNotes setting.clusterPath none) ∈ group := by
          refine (List.mem_append.mp hmem).resolve_right fun happroved => ?_
          obtain ⟨request, -, happrove⟩ := List.mem_map.mp happroved
          cases happrove
        obtain ⟨rfl, hstale⟩ := hserved.stale_of_mem hgroup
        exact ⟨node, List.mem_cons_self, hown, hstale⟩
      · rw [visit_of_not_named hnamed] at hvisit
        obtain ⟨rfl, -, -⟩ := hvisit.of_pure
        cases hmem
    · obtain ⟨other, hother, hstale⟩ := ih hnext hothers hmem
      exact ⟨other, List.mem_cons_of_mem _ hother, hstale⟩

end Reconcile

namespace Cluster

open Reconcile

variable {σ : Type} {answers : Tick.Answers σ} {view : σ → Cluster} {s after : σ}
  {made : List Call}

theorem rests_or_stale_of_ran (hcarries : Carries answers view) {now : Timestamp}
    {report : Report} (hnodes : ((view s).nodes.filterMap (·.metadata.name)).Nodup)
    (hrequests : ((view s).requests.filterMap (·.metadata.name)).Nodup)
    (h : Tick.Ran answers (reconcile now (view s).snapshot) s made report after) :
    ∃ t, (view after).IsCalm t made ∧ ∀ node ∈ (view after).nodes, ∀ name uid,
      node.metadata.name = some name → node.metadata.uid = some uid →
      (view after).Rests t node name ∨ ∃ old ∈ (view s).nodes, old.metadata.name = some name ∧
        old.metadata.note? Names.clusterConfigNote ≠ some t.clusterPath := by
  obtain ⟨t, hterms, hcalm⟩ := isCalm_of_ran hcarries hnodes hrequests h
  obtain ⟨setting, opening, calls, mid, progress, result, rfl, hsetting, -, -, hpass, hcalls⟩ :=
    ran_reconcile hcarries hnodes hrequests h
  obtain rfl := hterms.unique hsetting
  -- the bootstrap tells no node anything, so the visits are looked at by themselves
  have hvisits : Pass setting (view mid) (view mid) [] [] (view s).nodes progress :=
    { hpass with settled := List.forall_mem_nil _ }
  obtain ⟨nodes, hlast⟩ := hvisits.visitAll hcarries hcalls
  refine ⟨setting.terms, hcalm, fun node hnode name uid hname huid => ?_⟩
  rw [hlast.nodes, List.append_nil] at hnode
  obtain ⟨-, hrests, -⟩ := hlast.settled node hnode name uid hname huid
  refine hrests.imp id fun hmem => ?_
  exact hvisits.exists_stale_of_mem hcarries hcalls hmem

/-- The filter in front of the ticks never holds back the work that a tick leaves to the next one. If
a tick succeeds over what the cluster holds, and the next would ask anything of the cluster, the key
of the nodes has moved, and behind a list with the old key the new list passes. -/
theorem work_left_moves_changeKey (hcarries : Carries answers view) {start mid : σ}
    {now later : Timestamp} {first : Report}
    (hnodes : ((view start).nodes.filterMap (·.metadata.name)).Nodup)
    (hrequests : ((view start).requests.filterMap (·.metadata.name)).Nodup)
    (hfirst : (reconcile now (view start).snapshot).run answers start = (.ok first, mid))
    (hwork : (reconcile later (view mid).snapshot).calls answers mid ≠ []) :
    changeKey (view mid).nodes ≠ changeKey (view start).nodes ∧
      ∀ time rest, Timeline.distinctFrom changeKey (some (changeKey (view start).nodes))
        ((time, .change (some (view mid).nodes)) :: rest) =
          Timeline.publish time (view mid).nodes ::
            Timeline.distinctFrom changeKey (some (changeKey (view mid).nodes)) rest := by
  have hran := Tick.ran_of_run hfirst
  obtain ⟨t, hcalm, hleft⟩ := rests_or_stale_of_ran hcarries hnodes hrequests hran
  have hmoved : changeKey (view mid).nodes ≠ changeKey (view start).nodes := by
    intro hkey
    have hcalm' : (view mid).IsCalm t [] := by
      refine { hcalm with settled := fun node hnode name uid hname huid => ?_ }
      obtain ⟨htold, -, hrequests⟩ := hcalm.settled node hnode name uid hname huid
      refine ⟨htold, .inl ?_, hrequests⟩
      refine (hleft node hnode name uid hname huid).resolve_right ?_
      rintro ⟨old, hold, holdName, hstale⟩
      have hquiet := NodeKey.quietNotes_eq_of_changeKey hkey.symm hcalm.nodeNames hold hnode
        holdName hname
      have hnoisy : NodeKey.isNoisy Names.clusterConfigNote = false := by decide
      apply hstale
      rw [NodeKey.note?_eq_lookup _ hnoisy, hquiet, ← NodeKey.note?_eq_lookup _ hnoisy]
      exact Node.note?_of_not_isStale htold
    obtain ⟨report, hdone⟩ := hcalm'.reconcile_done later
    apply hwork
    rw [hdone]
    rfl
  refine ⟨hmoved, fun time rest => ?_⟩
  have hpasses : some (changeKey (view start).nodes) ≠ some (changeKey (view mid).nodes) :=
    fun heq => hmoved (Option.some.inj heq).symm
  rw [Timeline.distinctFrom, if_neg hpasses]

theorem work_left_moves_changeKey_of_fresh :
    let mid := fresh.tick.2.2
    (∃ report, fresh.tick.2 = (.ok report, mid)) ∧ mid.tick.1 ≠ [] ∧
      changeKey mid.nodes ≠ changeKey fresh.nodes := by
  intro mid
  obtain ⟨first, hfirst⟩ : ∃ report, fresh.tick.2 = (.ok report, mid) :=
    exists_ok_of_isSome (by decide +kernel)
  have hwork : mid.tick.1 ≠ [] := by decide +kernel
  obtain ⟨hmoved, -⟩ := work_left_moves_changeKey carries_obey (by decide) (by decide) hfirst hwork
  exact ⟨⟨first, hfirst⟩, hwork, hmoved⟩

end Cluster

end TunnelFleet
