namespace TunnelFleet

/-- How the nodes of a fleet come by their tunnel addresses. -/
inductive Mode where
  | selfProvision
  | manual
deriving DecidableEq

def Mode.text : Mode → String
  | .selfProvision => "SelfProvision"
  | .manual => "Manual"

def Mode.ofText? (s : String) : Option Mode :=
  if s = "SelfProvision" then some .selfProvision
  else if s = "Manual" then some .manual
  else none

/-- A router, where its peers reach it, and the pools it hands out: single addresses for nodes,
and blocks of one mask length for their pods. -/
structure Router where
  publicKey : String
  endpoint : String
  nodePool : String
  podPool : String
  podLen : Nat
deriving DecidableEq

/-- The networking settings of a cluster. The order of the routers is the order of the search for
free addresses. -/
structure Networking where
  nodeRange : String
  podRange : String
  serviceRange : String
  mode : Option Mode
  cniNumber : Option Nat
  cniMtu : Option Nat
  routers : List Router
deriving DecidableEq

namespace Networking

def isSelfProvision (n : Networking) : Bool :=
  n.mode == some .selfProvision

def router? (n : Networking) (publicKey : String) : Option Router :=
  n.routers.find? fun router => router.publicKey == publicKey

end Networking

end TunnelFleet
