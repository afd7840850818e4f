import TunnelFleet.Tick.Reconcile

namespace TunnelFleet

/-- A cluster in memory. Names need not be unique in it; a call concerns the first object of its
name, and an absent name counts as empty. -/
structure Cluster where
  nodes : List Node := []
  configMaps : List ConfigMap := []
  requests : List SigningRequest := []
deriving DecidableEq

def updateFirst {α : Type} (wanted : α → Bool) (change : α → α) : List α → List α
  | [] => []
  | a :: rest => if wanted a then change a :: rest else a :: updateFirst wanted change rest

def putFirst {α : Type} (wanted : α → Bool) (a : α) (items : List α) : List α :=
  if items.any wanted then updateFirst wanted (fun _ => a) items else items ++ [a]

def Meta.hasName (m : Meta) (name : String) : Bool :=
  m.name.getD "" == name

namespace Refusal

def failure (message reason : String) (code : Nat) : Refusal :=
  ⟨"Failure", message, reason, code⟩

def alreadyExists (subject : String) : Refusal :=
  failure (subject ++ " already exists") "AlreadyExists" 409

def notFound (subject : String) : Refusal :=
  failure (subject ++ " not found") "NotFound" 404

def conflict (subject : String) : Refusal :=
  failure (subject ++ " was modified") "Conflict" 409

end Refusal

def ConfigMap.withVersion (m : ConfigMap) (version : Nat) : ConfigMap :=
  { m with metadata := { m.metadata with resourceVersion := some (toString version) } }

namespace Cluster

def subject (collection name : String) : String :=
  collection ++ " \"" ++ name ++ "\""

def snapshot (c : Cluster) : Snapshot :=
  ⟨c.nodes, c.configMaps, c.requests⟩

def create (c : Cluster) (m : ConfigMap) : Except Refusal ConfigMap × Cluster :=
  let name := m.metadata.name.getD ""
  if c.configMaps.any fun stored => stored.metadata.hasName name then
    (.error (.alreadyExists (subject "configmaps" name)), c)
  else
    let stored := m.withVersion 1
    (.ok stored, { c with configMaps := c.configMaps ++ [stored] })

/-- The version after a given one; what is no number counts as zero. -/
def nextVersion (version : Option String) : Nat :=
  ((version.bind (Decimal.unsigned? 18446744073709551615)).getD 0) + 1

/-- Stores the next version of a config map, provided that it carries the stored version. -/
def replace (c : Cluster) (m : ConfigMap) : Except Refusal ConfigMap × Cluster :=
  let name := m.metadata.name.getD ""
  match c.configMaps.find? fun stored => stored.metadata.hasName name with
  | none => (.error (.notFound (subject "configmaps" name)), c)
  | some old =>
      if old.metadata.resourceVersion ≠ m.metadata.resourceVersion then
        (.error (.conflict (subject "configmaps" name)), c)
      else
        let stored := m.withVersion (nextVersion old.metadata.resourceVersion)
        (.ok stored, { c with
          configMaps := updateFirst (fun m => m.metadata.hasName name) (fun _ => stored)
            c.configMaps })

def annotate (c : Cluster) (name : String) (notes : Dict String) :
    Except Refusal Unit × Cluster :=
  if c.nodes.any fun node => node.metadata.hasName name then
    (.ok (), { c with
      nodes := updateFirst (fun node => node.metadata.hasName name)
        (fun node => { node with metadata := node.metadata.annotate notes }) c.nodes })
  else (.error (.notFound (subject "nodes" name)), c)

def approve (c : Cluster) (request : SigningRequest) : Except Refusal Unit × Cluster :=
  let name := request.metadata.name.getD ""
  if c.requests.any fun stored => stored.metadata.hasName name then
    (.ok (), { c with
      requests := updateFirst (fun stored => stored.metadata.hasName name)
        (fun stored => { stored with status := request.status }) c.requests })
  else (.error (.notFound (subject "csrs" name)), c)

def reply {α : Type} : Except Refusal α × Cluster → Except ClusterFault α × Cluster
  | (.ok value, c) => (.ok value, c)
  | (.error refusal, c) => (.error (.refused refusal), c)

def answer (c : Cluster) : (call : Call) → Except ClusterFault call.Reply × Cluster
  | .create m => reply (c.create m)
  | .replace m => reply (c.replace m)
  | .annotate node notes => reply (c.annotate node notes)
  | .approve request => reply (c.approve request)

/-- Puts a node in the place of the first one with the same name, where no name is a name of its
own. -/
def putNode (c : Cluster) (node : Node) : Cluster :=
  { c with nodes := putFirst (fun old => old.metadata.name == node.metadata.name) node c.nodes }

def putConfigMap (c : Cluster) (m : ConfigMap) : Cluster :=
  { c with
    configMaps := putFirst (fun old => old.metadata.name == m.metadata.name) m c.configMaps }

def putRequest (c : Cluster) (request : SigningRequest) : Cluster :=
  { c with
    requests := putFirst (fun old => old.metadata.name == request.metadata.name) request
      c.requests }

def deleteNode (c : Cluster) (name : String) : Cluster :=
  { c with nodes := c.nodes.filter fun node => node.metadata.name != some name }

def deleteConfigMap (c : Cluster) (name : String) : Cluster :=
  { c with configMaps := c.configMaps.filter fun m => m.metadata.name != some name }

def setAnnotations (c : Cluster) (name : String) (notes : Option (Dict String)) : Cluster :=
  { c with nodes := c.nodes.map fun node =>
      if node.metadata.name = some name then
        { node with metadata := { node.metadata with annotations := notes } }
      else node }

end Cluster

inductive CallKind where
  | create
  | replace
  | annotate
  | approve
deriving DecidableEq

def Call.kind : Call → CallKind
  | .create _ => .create
  | .replace _ => .replace
  | .annotate _ _ => .annotate
  | .approve _ => .approve

def CallKind.text : CallKind → String
  | .create => "create"
  | .replace => "replace"
  | .annotate => "patch"
  | .approve => "approve"

namespace Tick

def recording {σ : Type} (answers : Answers σ) : Answers (List Call × σ) :=
  fun (calls, state) call =>
    let (reply, after) := answers state call
    (reply, (call :: calls, after))

/-- Refuses one call of a kind, after `left` others of the kind went by. -/
def refusing {σ : Type} (kind : CallKind) (answers : Answers σ) : Answers (Option Nat × σ) :=
  fun (left, state) call =>
    if call.kind = kind then
      match left with
      | some 0 =>
          let refusal := Refusal.failure (kind.text ++ " refused") "InternalError" 500
          (.error (.refused refusal), (none, state))
      | left =>
          let (reply, after) := answers state call
          (reply, (left.map (· - 1), after))
    else
      let (reply, after) := answers state call
      (reply, (left, after))

end Tick

end TunnelFleet
