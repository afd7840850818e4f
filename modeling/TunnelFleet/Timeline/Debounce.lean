import TunnelFleet.Timeline.Basic

namespace TunnelFleet.Timeline

variable {α : Type}

/-- Debouncing from a point on. `pending` is the instant at which the quiet period ends that is
under way, and the newest value. A value that comes just then finds the period over; a source that
races its timer against its values may as well begin another period. -/
def debounceFrom (window : Nat) (pending : Option (Nat × Option α)) : Timeline α → Timeline α
  | [] =>
      match pending with
      | none => []
      | some (deadline, value) => publish? deadline value
  | (time, signal) :: rest =>
      let due := match pending with
        | some (deadline, value) => if deadline ≤ time then publish? deadline value else []
        | none => []
      let held := pending.filter fun p => time < p.1
      match signal with
      | .change value => due ++ debounceFrom window (some (time + window, value)) rest
      | .close => due ++ (held.map fun p => publish? time p.2).getD [] ++ [(time, .close)]

/-- Publishes a value again only when its source has been quiet for `window`. A source that is
closed has its newest value published at once. -/
def debounce (window : Nat) (source : Timeline α) : Timeline α :=
  debounceFrom window none (perInstant source)

end TunnelFleet.Timeline
