import TunnelFleet.Timeline.Settle

namespace TunnelFleet.Timeline

variable {α : Type}

/-- When a stage ends that would publish a timeline: with its close, or at the first value for
which its reader is gone. Only then does it let go of its own source. -/
def ending? (isGone : Nat → Bool) (output : Timeline α) : Option Nat :=
  (output.find? fun entry => entry.2.isClose || isGone entry.1).map (·.1)

def until? (gone : Option Nat) (output : Timeline α) : Timeline α :=
  match gone with
  | none => output
  | some instant => output.filter fun entry => entry.1 < instant

def goneBy (gone : Option Nat) (time : Nat) : Bool :=
  gone.any fun instant => instant ≤ time

def endedBefore (ending : Option Nat) (time : Nat) : Bool :=
  ending.any fun instant => instant < time

end TunnelFleet.Timeline

namespace TunnelFleet

structure SourceEndings where
  nodes : Option Nat
  configMaps : Option Nat
  requests : Option Nat

open Timeline in
/-- The endings of the settling stages when the reader of their result goes away. Each stage
notices the end of the next one when it publishes again. -/
def Sources.endings (s : Sources) (gone : Option Nat) : SourceEndings :=
  let last := s.settle.ending? (goneBy gone)
  let middle := s.combined.ending? (endedBefore last)
  let newNodes := s.newNodes.ending? (endedBefore middle)
  { nodes := s.settledNodes.ending? (endedBefore newNodes)
    configMaps := s.settledConfigMaps.ending? (endedBefore middle)
    requests := s.settledRequests.ending? (endedBefore middle) }

end TunnelFleet
