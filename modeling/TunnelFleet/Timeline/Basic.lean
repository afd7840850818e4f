namespace TunnelFleet

/-- What happens on a channel: a new value takes the place of the old one, perhaps no value at all,
or the channel is closed. -/
inductive Signal (α : Type) where
  | change (value : Option α)
  | close
deriving DecidableEq

/-- What happens on a channel and when, in the order of time. -/
abbrev Timeline (α : Type) := List (Nat × Signal α)

namespace Signal

def isClose {α : Type} : Signal α → Bool
  | .close => true
  | .change _ => false

end Signal

namespace Timeline

variable {α : Type}

def publish (time : Nat) (value : α) : Nat × Signal α :=
  (time, .change (some value))

def publish? (time : Nat) (value : Option α) : Timeline α :=
  value.toList.map (publish time)

/-- Of several changes at one instant a reader sees the last. Nothing happens after a close. -/
def perInstant : Timeline α → Timeline α
  | [] => []
  | (time, .close) :: _ => [(time, .close)]
  | (time, .change value) :: rest =>
      match rest with
      | (later, .change _) :: _ =>
          if later = time then perInstant rest else (time, .change value) :: perInstant rest
      | _ => (time, .change value) :: perInstant rest

def published (timeline : Timeline α) : List (Nat × α) :=
  timeline.filterMap fun entry =>
    match entry.2 with
    | .change value => value.map fun v => (entry.1, v)
    | .close => none

section Distinct

variable {κ : Type} [DecidableEq κ]

def distinctFrom (key : α → κ) (last : Option κ) : Timeline α → Timeline α
  | [] => []
  | (time, .close) :: _ => [(time, .close)]
  | (_, .change none) :: rest => distinctFrom key last rest
  | (time, .change (some value)) :: rest =>
      if last = some (key value) then distinctFrom key last rest
      else publish time value :: distinctFrom key (some (key value)) rest

/-- Passes a value on unless its key is that of the last value passed on. -/
def distinct (key : α → κ) (source : Timeline α) : Timeline α :=
  distinctFrom key none (perInstant source)

end Distinct

end Timeline

end TunnelFleet
