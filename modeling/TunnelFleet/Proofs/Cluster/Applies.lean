import Mathlib.Data.List.Nodup
import TunnelFleet.Cluster
import TunnelFleet.Proofs.Dict

namespace TunnelFleet

section First

variable {α : Type} {wanted : α → Bool} {change : α → α} {items before after : List α} {a : α}

theorem updateFirst_append_cons (hbefore : ∀ x ∈ before, wanted x = false) (ha : wanted a = true) :
    updateFirst wanted change (before ++ a :: after) = before ++ change a :: after := by
  induction before with
  | nil => rw [List.nil_append, updateFirst, if_pos ha, List.nil_append]
  | cons x rest ih =>
    obtain ⟨hx, hrest⟩ := List.forall_mem_cons.mp hbefore
    rw [List.cons_append, updateFirst, hx, ih hrest]
    rfl

theorem append_cons_of_find? (h : items.find? wanted = some a) :
    ∃ before after, items = before ++ a :: after ∧ (∀ x ∈ before, wanted x = false) ∧
      wanted a = true := by
  obtain ⟨ha, before, after, rfl, hbefore⟩ := List.find?_eq_some_iff_append.mp h
  exact ⟨before, after, rfl, fun x hx => by simpa using hbefore x hx, ha⟩

theorem filterMap_updateFirst {β : Type} {f : α → Option β} (h : ∀ a, f (change a) = f a) :
    (updateFirst wanted change items).filterMap f = items.filterMap f := by
  induction items with
  | nil => rfl
  | cons x rest ih =>
    rw [updateFirst]
    split
    · rw [List.filterMap_cons, List.filterMap_cons, h]
    · rw [List.filterMap_cons, List.filterMap_cons, ih]

theorem mem_updateFirst {x : α} (h : x ∈ updateFirst wanted change items) :
    x ∈ items ∨ ∃ old ∈ items, x = change old := by
  induction items with
  | nil => cases h
  | cons y rest ih =>
    rw [updateFirst] at h
    split at h
    · rcases List.mem_cons.mp h with rfl | h
      · exact .inr ⟨y, List.mem_cons_self, rfl⟩
      · exact .inl (List.mem_cons_of_mem _ h)
    · rcases List.mem_cons.mp h with rfl | h
      · exact .inl List.mem_cons_self
      · refine (ih h).imp (List.mem_cons_of_mem _) fun ⟨old, hold, heq⟩ => ?_
        exact ⟨old, List.mem_cons_of_mem _ hold, heq⟩

theorem name_ne_of_nodup (name? : α → Option String) {name : String}
    (h : ((before ++ a :: after).filterMap name?).Nodup) (ha : name? a = some name) :
    (∀ x ∈ before, name? x ≠ some name) ∧ ∀ x ∈ after, name? x ≠ some name := by
  rw [List.filterMap_append, List.filterMap_cons_some ha, List.nodup_middle, List.nodup_cons,
    List.mem_append] at h
  have hnot (items : List α) (hitems : name ∉ items.filterMap name?) :
      ∀ x ∈ items, name? x ≠ some name :=
    fun x hx heq => hitems (List.mem_filterMap.mpr ⟨x, hx, heq⟩)
  exact ⟨hnot before fun hmem => h.1 (.inl hmem), hnot after fun hmem => h.1 (.inr hmem)⟩

end First

namespace ConfigMap

def inFleet (m : ConfigMap) : ConfigMap :=
  { m with metadata := { m.metadata with nameSpace := some Names.fleetNamespace } }

variable (m : ConfigMap) (version : Nat)

@[simp]
theorem isNamed_stored (name : String) :
    (m.inFleet.withVersion version).isNamed name = m.isNamed name :=
  rfl

@[simp]
theorem ownerName?_stored :
    NodeConfig.ownerName? (m.inFleet.withVersion version) = NodeConfig.ownerName? m :=
  rfl

end ConfigMap

namespace Cluster

def added (c : Cluster) (m : ConfigMap) : Cluster :=
  { c with configMaps := c.configMaps ++ [m] }

def replaced (c : Cluster) (name : String) (m : ConfigMap) : Cluster :=
  { c with configMaps := updateFirst (fun old => old.isNamed name) (fun _ => m) c.configMaps }

def told (c : Cluster) (name : String) (notes : Dict String) : Cluster :=
  { c with
    nodes := updateFirst (fun node => node.metadata.name == some name)
      (fun node => { node with metadata := node.metadata.annotate notes }) c.nodes }

def answered (c : Cluster) (request : SigningRequest) : Cluster :=
  { c with
    requests := updateFirst (fun old => old.metadata.name == request.metadata.name)
      (fun old => { old with status := request.status }) c.requests }

/-- What it takes for a cluster in memory to carry out a call, and what becomes of it. It creates
config maps in the namespace of the fleet and numbers their versions. -/
def Applies (c : Cluster) : (call : Call) → call.Reply → Cluster → Prop
  | .create m, stored, after => ∃ name version, m.metadata.name = some name ∧
      (∀ old ∈ c.configMaps, old.isNamed name = false) ∧
      stored = m.inFleet.withVersion version ∧ after = c.added stored
  | .replace m, stored, after => ∃ name old version, m.metadata.name = some name ∧
      (c.configMaps.find? fun old => old.isNamed name) = some old ∧
      old.metadata.resourceVersion = m.metadata.resourceVersion ∧
      stored = m.withVersion version ∧ after = c.replaced name stored
  | .annotate name notes, _, after =>
      (∃ node ∈ c.nodes, node.metadata.name = some name) ∧ after = c.told name notes
  | .approve request, _, after => request.metadata.name.isSome = true ∧
      (∃ old ∈ c.requests, old.metadata.name = request.metadata.name) ∧ after = c.answered request

/-- Whatever calls succeed, they do to the cluster behind a state what they should. -/
def Carries {σ : Type} (answers : Tick.Answers σ) (view : σ → Cluster) : Prop :=
  ∀ state call reply after, answers state call = (.ok reply, after) →
    (view state).Applies call reply (view after)

def refuse {α : Type} (c : Cluster) : Except ClusterFault α × Cluster :=
  (.error (.refused (.failure "" "" 500)), c)

def versionAfter? : Option String → Option Nat
  | none => some 1
  | some version =>
      (Decimal.unsigned? 18446744073709551614 version).map (· + 1)

/-- The cluster in memory, which refuses what it cannot carry out. -/
def obey (c : Cluster) : (call : Call) → Except ClusterFault call.Reply × Cluster
  | .create m =>
      match m.metadata.name with
      | none => c.refuse
      | some name =>
          if c.configMaps.any fun old => old.isNamed name then c.refuse
          else (.ok (m.inFleet.withVersion 1), c.added (m.inFleet.withVersion 1))
  | .replace m =>
      match m.metadata.name with
      | none => c.refuse
      | some name =>
          match c.configMaps.find? fun old => old.isNamed name with
          | none => c.refuse
          | some old =>
              match versionAfter? old.metadata.resourceVersion with
              | none => c.refuse
              | some version =>
                  if old.metadata.resourceVersion = m.metadata.resourceVersion then
                    (.ok (m.withVersion version), c.replaced name (m.withVersion version))
                  else c.refuse
  | .annotate name notes =>
      if c.nodes.any fun node => node.metadata.name == some name then (.ok (), c.told name notes)
      else c.refuse
  | .approve request =>
      if request.metadata.name.isSome &&
          c.requests.any fun old => old.metadata.name == request.metadata.name then
        (.ok (), c.answered request)
      else c.refuse

theorem carries_obey : Carries obey id := by
  intro c call reply after h
  cases call with
  | create m =>
    rw [obey] at h
    split at h
    next => cases h
    next name hname =>
      split at h
      next => cases h
      next hnew =>
        obtain ⟨hreply, rfl⟩ := Prod.mk.inj h
        obtain rfl := Except.ok.inj hreply
        exact ⟨name, 1, hname, by simpa using hnew, rfl, rfl⟩
  | replace m =>
    rw [obey] at h
    split at h
    next => cases h
    next name hname =>
      split at h
      next => cases h
      next old hold =>
        split at h
        next => cases h
        next version _ =>
          split at h
          next hcarried =>
            obtain ⟨hreply, rfl⟩ := Prod.mk.inj h
            obtain rfl := Except.ok.inj hreply
            exact ⟨name, old, version, hname, hold, hcarried, rfl, rfl⟩
          next => cases h
  | annotate name notes =>
    rw [obey] at h
    split at h
    next hnode =>
      obtain ⟨-, rfl⟩ := Prod.mk.inj h
      exact ⟨by simpa using hnode, rfl⟩
    next => cases h
  | approve request =>
    rw [obey] at h
    split at h
    next hrequest =>
      obtain ⟨-, rfl⟩ := Prod.mk.inj h
      obtain ⟨hname, hrequest⟩ := Bool.and_eq_true_iff.mp hrequest
      exact ⟨hname, by simpa using hrequest, rfl⟩
    next => cases h

end Cluster

end TunnelFleet
