import TunnelFleet.ChangeKey
import TunnelFleet.Object.ConfigMap
import TunnelFleet.Object.SigningRequest
import TunnelFleet.Tick.Reconcile
import TunnelFleet.Timeline.Basic
import TunnelFleet.Timeline.Combine
import TunnelFleet.Timeline.Debounce

namespace TunnelFleet

namespace Window

/-- How long each source must be quiet, and all of them together, in milliseconds. -/
def nodes : Nat := 250

def configMaps : Nat := 100

def requests : Nat := 250

def together : Nat := 1000

end Window

structure Sources where
  nodes : Timeline (List Node)
  configMaps : Timeline (List ConfigMap)
  requests : Timeline (List SigningRequest)

namespace Sources

def settledNodes (s : Sources) : Timeline (List Node) :=
  s.nodes.debounce Window.nodes

def newNodes (s : Sources) : Timeline (List Node) :=
  s.settledNodes.distinct changeKey

def settledConfigMaps (s : Sources) : Timeline (List ConfigMap) :=
  s.configMaps.debounce Window.configMaps

def settledRequests (s : Sources) : Timeline (List SigningRequest) :=
  s.requests.debounce Window.requests

def combined (s : Sources) : Timeline (List Node × List ConfigMap × List SigningRequest) :=
  Timeline.combine s.newNodes s.settledConfigMaps s.settledRequests

/-- What is to be ticked over: each source settles by itself, node lists pass only with something
new in them, and then all three settle together. -/
def settle (s : Sources) : Timeline (List Node × List ConfigMap × List SigningRequest) :=
  s.combined.debounce Window.together

end Sources

def Snapshot.ofTriple (t : List Node × List ConfigMap × List SigningRequest) : Snapshot :=
  ⟨t.1, t.2.1, t.2.2⟩

end TunnelFleet
