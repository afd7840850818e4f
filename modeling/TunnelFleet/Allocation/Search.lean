import TunnelFleet.Address.Walk
import TunnelFleet.Allocation.Basic
import TunnelFleet.Networking.Basic
import TunnelFleet.Text.Quoted

namespace TunnelFleet

inductive BlockRole where
  | nodeIP
  | podNet
  | nodePool
  | podPool
deriving DecidableEq

def BlockRole.text : BlockRole → String
  | .nodeIP => "allocated NodeIP"
  | .podNet => "allocated PodNet"
  | .nodePool => "NodePool"
  | .podPool => "PodPool"

inductive SearchError where
  | badBlock (role : BlockRole) (text : String) (cause : BlockError)
  | exhausted
deriving DecidableEq

namespace Allocation

def block (role : BlockRole) (s : String) : Except SearchError Block :=
  match Block.ofText s with
  | .ok b => .ok b
  | .error cause => .error (.badBlock role s cause)

def isFree (taken : List Block) (candidate : Block) : Bool :=
  !taken.any fun b => b.overlaps candidate

/-- The first free address of a router with its first free block for pods. A router that lacks
either has none. -/
def ofRouter? (nodeIPs podNets : List Block) (router : Router) (nodePool podPool : Block) :
    Option Allocation := do
  let nodeIP ← (Walk.start nodePool 32).find? (isFree nodeIPs)
  let podNet ← (Walk.start podPool router.podLen).find? (isFree podNets)
  some ⟨"", router.publicKey, "", nodeIP.address.text, podNet.text⟩

/-- Asks the routers in their order. The pools of a router are read when its turn comes. -/
def search (nodeIPs podNets : List Block) : List Router → Except SearchError Allocation
  | [] => .error .exhausted
  | router :: rest => do
      let nodePool ← block .nodePool router.nodePool
      let podPool ← block .podPool router.podPool
      match ofRouter? nodeIPs podNets router nodePool podPool with
      | some found => .ok found
      | none => search nodeIPs podNets rest

/-- The next free pair of addresses; the node's key and name are left empty. -/
def next (routers : List Router) (taken : Table) : Except SearchError Allocation := do
  let nodeIPs ← taken.rows.mapM fun row => block .nodeIP row.nodeIP
  let podNets ← taken.rows.mapM fun row => block .podNet row.podNet
  search nodeIPs podNets routers

end Allocation

end TunnelFleet
