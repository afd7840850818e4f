import TunnelFleet.Timeline.Basic

namespace TunnelFleet.Timeline

variable {α β γ : Type}

inductive Arrival (α β γ : Type) where
  | first (signal : Signal α)
  | second (signal : Signal β)
  | third (signal : Signal γ)

/-- The newest values of three channels, and what has happened at the instant under way. -/
structure Newest (α β γ : Type) where
  first : Option α
  second : Option β
  third : Option γ
  changed : Bool
  closed : Bool

namespace Newest

def start : Newest α β γ :=
  ⟨none, none, none, false, false⟩

def take (n : Newest α β γ) : Arrival α β γ → Newest α β γ
  | .first (.change value) => { n with first := value, changed := true }
  | .second (.change value) => { n with second := value, changed := true }
  | .third (.change value) => { n with third := value, changed := true }
  | .first .close => { n with closed := true }
  | .second .close => { n with closed := true }
  | .third .close => { n with closed := true }

def all? (n : Newest α β γ) : Option (α × β × γ) :=
  match n.changed, n.first, n.second, n.third with
  | true, some a, some b, some c => some (a, b, c)
  | _, _, _, _ => none

def settle (n : Newest α β γ) : Newest α β γ :=
  { n with changed := false, closed := false }

end Newest

def combineFrom (n : Newest α β γ) : List (Nat × Arrival α β γ) → Timeline (α × β × γ)
  | [] => []
  | (time, arrival) :: rest =>
      let n := n.take arrival
      if rest.head?.any fun next => next.1 == time then combineFrom n rest
      else if n.closed then publish? time n.all? ++ [(time, .close)]
      else publish? time n.all? ++ combineFrom n.settle rest

def arrivals (a : Timeline α) (b : Timeline β) (c : Timeline γ) : List (Nat × Arrival α β γ) :=
  let earlier := fun (x y : Nat × Arrival α β γ) => decide (x.1 ≤ y.1)
  let first := a.map fun entry => (entry.1, Arrival.first entry.2)
  let second := b.map fun entry => (entry.1, Arrival.second entry.2)
  let third := c.map fun entry => (entry.1, Arrival.third entry.2)
  (first.merge second earlier).merge third earlier

/-- Publishes the newest values of three channels at every instant at which one of them changes,
once each has a value. The result is closed with the first of them. -/
def combine (a : Timeline α) (b : Timeline β) (c : Timeline γ) : Timeline (α × β × γ) :=
  combineFrom .start (arrivals (perInstant a) (perInstant b) (perInstant c))

end TunnelFleet.Timeline
