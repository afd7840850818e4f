import TunnelFleet.Object.HasMeta

namespace TunnelFleet

/-- What the watch of a collection tells: a listing from its beginning to its end, the changes
after it, and failures at any time. -/
inductive WatchEvent (α : Type) where
  | listing
  | listed (object : α)
  | listingDone
  | applied (object : α)
  | deleted (object : α)
  | failed
deriving DecidableEq

/-- A collection as its watch has told it: the objects of the last finished listing with the changes
since, the objects of a listing under way, and whether the last listing is finished. Objects stand
under their identities. -/
structure Replica (α : Type) where
  objects : Dict α := .empty
  arriving : Dict α := .empty
  synced : Bool := false
deriving DecidableEq

namespace WatchEvent

variable {α : Type}

/-- Whether an event may bring something to publish. The beginning of a listing and a failure
never do. -/
def isNews : WatchEvent α → Bool
  | .listing => false
  | .failed => false
  | _ => true

def object? : WatchEvent α → Option α
  | .listed object => some object
  | .applied object => some object
  | .deleted object => some object
  | _ => none

/-- Whether an event tells of an object that has no identity. No replica can follow it. -/
def isNameless [HasMeta α] (event : WatchEvent α) : Bool :=
  event.object?.any fun object => (HasMeta.identity? object).isNone

def ofListing (objects : List α) : List (WatchEvent α) :=
  .listing :: objects.map .listed ++ [.listingDone]

def changes [DecidableEq α] (before after : Dict α) : List (WatchEvent α) :=
  ((before.entries.filter fun entry => (after.get? entry.1).isNone).map fun entry =>
    .deleted entry.2) ++
  ((after.entries.filter fun entry => before.get? entry.1 != some entry.2).map fun entry =>
    .applied entry.2)

end WatchEvent

namespace Replica

variable {α : Type} [HasMeta α]

def put (objects : Dict α) (object : α) : Dict α :=
  match HasMeta.identity? object with
  | some identity => objects.insert identity object
  | none => objects

def remove (objects : Dict α) (object : α) : Dict α :=
  match HasMeta.identity? object with
  | some identity => objects.erase identity
  | none => objects

/-- Follows the watch. A listing takes the place of what was there before only when it is
finished. -/
def take (r : Replica α) : WatchEvent α → Replica α
  | .listing => { r with arriving := .empty, synced := false }
  | .listed object => { r with arriving := put r.arriving object }
  | .listingDone => ⟨r.arriving, .empty, true⟩
  | .applied object => { r with objects := put r.objects object }
  | .deleted object => { r with objects := remove r.objects object }
  | .failed => r

/-- Follows the watch and tells what is published then: all objects, if there is news and no listing
is under way. -/
def step (r : Replica α) (event : WatchEvent α) : Option (List α) × Replica α :=
  let r := r.take event
  (if event.isNews && r.synced then some r.objects.values else none, r)

end Replica

end TunnelFleet
