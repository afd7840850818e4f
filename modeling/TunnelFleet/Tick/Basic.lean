import TunnelFleet.Failure
import TunnelFleet.Object.ConfigMap
import TunnelFleet.Object.Node
import TunnelFleet.Object.SigningRequest

namespace TunnelFleet

/-- What a controller asks of the cluster. -/
inductive Call where
  | create (configMap : ConfigMap)
  | replace (configMap : ConfigMap)
  | annotate (node : String) (notes : Dict String)
  | approve (request : SigningRequest)
deriving DecidableEq

/-- What a call brings back when it is carried out: a config map as it was stored, or nothing. -/
def Call.Reply : Call → Type
  | .create _ => ConfigMap
  | .replace _ => ConfigMap
  | .annotate _ _ => Unit
  | .approve _ => Unit

/-- Work that asks the cluster one call after the other. The rest of it depends on what the calls
bring back; a call that brings nothing back ends it. -/
inductive Tick (α : Type) where
  | done (value : α)
  | fail (failure : Failure)
  | ask (call : Call) (next : call.Reply → Tick α)

namespace Tick

def bind {α β : Type} : Tick α → (α → Tick β) → Tick β
  | .done value, f => f value
  | .fail failure, _ => .fail failure
  | .ask call next, f => .ask call fun reply => (next reply).bind f

instance : Monad Tick where
  pure := .done
  bind := Tick.bind

def ofExcept {ε α : Type} (failure : ε → Failure) : Except ε α → Tick α
  | .ok value => .done value
  | .error e => .fail (failure e)

def create (configMap : ConfigMap) : Tick ConfigMap :=
  .ask (.create configMap) .done

def replace (configMap : ConfigMap) : Tick ConfigMap :=
  .ask (.replace configMap) .done

def annotate (node : String) (notes : Dict String) : Tick Unit :=
  .ask (.annotate node notes) .done

def approve (request : SigningRequest) : Tick Unit :=
  .ask (.approve request) .done

/-- A cluster: to each call it gives a reply or tells why there is none, and it may change. -/
abbrev Answers (σ : Type) :=
  σ → (call : Call) → Except ClusterFault call.Reply × σ

/-- Carries one call of a tick to a cluster. A tick that has come to its end stays there, and one
whose call brings nothing back fails. -/
def step {σ α : Type} (answers : Answers σ) : Tick α → σ → Tick α × σ
  | .done value, state => (.done value, state)
  | .fail failure, state => (.fail failure, state)
  | .ask call next, state =>
      match answers state call with
      | (.ok reply, after) => (next reply, after)
      | (.error fault, after) => (.fail (.cluster fault), after)

def result? {α : Type} : Tick α → Option (Except Failure α)
  | .done value => some (.ok value)
  | .fail failure => some (.error failure)
  | .ask _ _ => none

def run {σ α : Type} (answers : Answers σ) : Tick α → σ → Except Failure α × σ
  | .done value, state => (.ok value, state)
  | .fail failure, state => (.error failure, state)
  | .ask call next, state =>
      match answers state call with
      | (.ok reply, after) => (next reply).run answers after
      | (.error fault, after) => (.error (.cluster fault), after)

end Tick

end TunnelFleet
