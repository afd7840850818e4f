import TunnelFleet.Timeline.Basic
import TunnelFleet.Watch.Replica

namespace TunnelFleet

/-- A collection that is followed, with all that was published of it, and the time of its next
listing, if one is due. It is closed for good by an object that it cannot follow. -/
structure Feed (α : Type) where
  replica : Replica α := {}
  published : Timeline (List α) := []
  listingAt : Option Nat := none
  closed : Bool := false

namespace Feed

variable {α : Type} [HasMeta α]

def pause : Nat := 800

def start (time : Nat) : Feed α :=
  { listingAt := some time }

def take (f : Feed α) (time : Nat) (event : WatchEvent α) : Feed α :=
  if f.closed then f
  else if event.isNameless then
    { f with published := f.published ++ [(time, .close)], listingAt := none, closed := true }
  else
    let (news, replica) := f.replica.step event
    { f with replica, published := f.published ++ Timeline.publish? time news }

def takeAll (f : Feed α) (time : Nat) (events : List (WatchEvent α)) : Feed α :=
  events.foldl (fun f event => f.take time event) f

def list (f : Feed α) (time : Nat) : Option (List α) → Feed α
  | some objects => { f.takeAll time (WatchEvent.ofListing objects) with listingAt := none }
  | none => { f.takeAll time [.listing, .failed] with listingAt := some (time + pause) }

/-- Sees a change of the collection, unless a listing is due that will show it. -/
def observe [DecidableEq α] (f : Feed α) (time : Nat) (before after : Dict α) : Feed α :=
  if f.listingAt.isSome then f else f.takeAll time (WatchEvent.changes before after)

end Feed

end TunnelFleet
