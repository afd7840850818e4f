import TunnelFleet.Timeline.Basic

namespace TunnelFleet.Timeline

variable {α : Type}

/-- A consumer that handles one value at a time: when it is free again, and a change that it has
not looked at yet. -/
structure Consumer (α : Type) where
  free : Nat
  unseen : Option (Option α)

namespace Consumer

def look (busy : Nat → Nat) (time : Nat) (value : Option α) : Timeline α × Consumer α :=
  match value with
  | none => ([], ⟨time, none⟩)
  | some v => ([publish time v], ⟨time + busy time, none⟩)

def drain (busy : Nat → Nat) (c : Consumer α) : Timeline α × Consumer α :=
  match c.unseen with
  | none => ([], c)
  | some value => look busy c.free value

end Consumer

def sequentialFrom (busy : Nat → Nat) (c : Consumer α) : Timeline α → Timeline α
  | [] => (c.drain busy).1
  | (time, .close) :: _ =>
      let (calls, c) := c.drain busy
      calls ++ [(max c.free time, .close)]
  | (time, .change value) :: rest =>
      let (calls, c) := if c.free ≤ time then c.drain busy else ([], c)
      if c.free ≤ time then
        let (more, c) := Consumer.look busy time value
        calls ++ more ++ sequentialFrom busy c rest
      else calls ++ sequentialFrom busy { c with unseen := some value } rest

/-- Hands values to a handler one at a time; each entry is the start of a call. Values that arrive
during a call give way to the newest. The result is closed when the last call of a closed source
has ended. -/
def sequential (busy : Nat → Nat) (source : Timeline α) : Timeline α :=
  sequentialFrom busy ⟨0, none⟩ (perInstant source)

end TunnelFleet.Timeline
