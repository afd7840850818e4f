import TunnelFleet.Api.Connection
import TunnelFleet.Counters
import TunnelFleet.Timeline.Sequential
import TunnelFleet.Timeline.Settle
import TunnelFleet.Watch.Feed

namespace TunnelFleet

open Api (Connection Fault Server fleet)

structure Feeds where
  nodes : Feed Node
  configMaps : Feed ConfigMap
  requests : Feed SigningRequest

namespace Feeds

def start (time : Nat) : Feeds :=
  ⟨.start time, .start time, .start time⟩

def sources (f : Feeds) : Sources :=
  ⟨f.nodes.published, f.configMaps.published, f.requests.published⟩

/-- When ticks take place and over what, as far as nothing more is published. Ticks take no time. -/
def ticks (f : Feeds) : List (Nat × Snapshot) :=
  (f.sources.settle.sequential fun _ => 0).published.map fun entry =>
    (entry.1, .ofTriple entry.2)

def observe (f : Feeds) (time : Nat) (before after : Server) : Feeds where
  nodes := f.nodes.observe time (fleet before.nodes) (fleet after.nodes)
  configMaps := f.configMaps.observe time (fleet before.configMaps) (fleet after.configMaps)
  requests := f.requests.observe time (fleet before.requests) (fleet after.requests)

def listingAt? (f : Feeds) : Option Nat :=
  [f.nodes.listingAt, f.configMaps.listingAt, f.requests.listingAt].filterMap id |>.min?

def list (f : Feeds) (time : Nat) (c : Connection) : Feeds × Connection :=
  let (nodes, c) :=
    if f.nodes.listingAt = some time then
      let (objects, c) := c.collect Connection.listNodes
      (f.nodes.list time objects, c)
    else (f.nodes, c)
  let (configMaps, c) :=
    if f.configMaps.listingAt = some time then
      let (objects, c) := c.collect Connection.listConfigMaps
      (f.configMaps.list time objects, c)
    else (f.configMaps, c)
  let (requests, c) :=
    if f.requests.listingAt = some time then
      let (objects, c) := c.collect Connection.listRequests
      (f.requests.list time objects, c)
    else (f.requests, c)
  (⟨nodes, configMaps, requests⟩, c)

end Feeds

/-- A running node controller: what it follows, and how many of its ticks took place. -/
structure Controller where
  feeds : Feeds
  handled : Nat := 0

namespace Controller

def start (time : Nat) : Controller :=
  ⟨.start time, 0⟩

def tick? (k : Controller) : Option (Nat × Snapshot) :=
  k.feeds.ticks[k.handled]?

def tickAt? (k : Controller) (time : Nat) : Option Snapshot :=
  (k.tick?.filter fun entry => entry.1 == time).map (·.2)

def begun (k : Controller) (time : Nat) : Controller :=
  if (k.tickAt? time).isSome then { k with handled := k.handled + 1 } else k

def listAll (time : Nat) : List Controller → Connection → List Controller × Connection
  | [], c => ([], c)
  | k :: rest, c =>
      let (feeds, c) := k.feeds.list time c
      let (rest, c) := listAll time rest c
      ({ k with feeds } :: rest, c)

def dueAt? (controllers : List Controller) : Option Nat :=
  (controllers.flatMap fun k =>
    k.feeds.listingAt?.toList ++ (k.tick?.map (·.1)).toList).min?

end Controller

namespace Tick

variable {σ α : Type}

/-- Carries the next call of every tick to a cluster, one after the other. -/
def turn (answers : Answers σ) : List (Tick α) → σ → List (Tick α) × σ
  | [], state => ([], state)
  | tick :: rest, state =>
      let (tick, state) := tick.step answers state
      let (rest, state) := turn answers rest state
      (tick :: rest, state)

/-- Carries out several ticks at once, which take turns in calling the cluster. -/
def together (answers : Answers σ) : Nat → List (Tick α) → σ → List (Tick α) × σ
  | 0, ticks, state => (ticks, state)
  | turns + 1, ticks, state =>
      let (ticks, state) := turn answers ticks state
      together answers turns ticks state

/-- More calls than a tick over a snapshot makes. -/
def callBound (snapshot : Snapshot) : Nat :=
  snapshot.nodes.length * (snapshot.requests.length + 3) + 2

end Tick

/-- Node controllers and their cluster in time. All of them count together. -/
structure Session where
  connection : Connection
  counters : Counters := {}
  clock : Nat := 0
  controllers : List Controller := []

namespace Session

def after (s : Session) (connection : Connection) : Session :=
  { s with
    connection
    controllers := s.controllers.map fun k =>
      { k with feeds := k.feeds.observe s.clock s.connection.server connection.server } }

def change (s : Session) (f : Server → Server) : Session :=
  s.after { s.connection with server := f s.connection.server }

/-- One tick over a snapshot, counted by its result. -/
def tick (now : Timestamp) (snapshot : Snapshot) (s : Session) :
    Except Failure Report × Session :=
  let (result, connection) := (reconcile now snapshot).run Connection.answer s.connection
  (result, { s.after connection with counters := s.counters.afterTick result })

/-- Lists everything, then makes one tick. A list that brings nothing is no tick. -/
def once (now : Timestamp) (s : Session) : Except Failure Report × Session :=
  match s.connection.list with
  | (.error fault, connection) => (.error (.cluster fault), s.after connection)
  | (.ok snapshot, connection) => (s.after connection).tick now snapshot

def ticks (now : Timestamp) (s : Session) : Session :=
  let snapshots := s.controllers.filterMap fun k => k.tickAt? s.clock
  let turns := (snapshots.map Tick.callBound).foldl Nat.add 0
  let (ticks, connection) :=
    Tick.together Connection.answer turns (snapshots.map (reconcile now)) s.connection
  let counters := (ticks.filterMap Tick.result?).foldl Counters.afterTick s.counters
  let begun : Session := { s with controllers := s.controllers.map fun k => k.begun s.clock }
  { begun.after connection with counters }

/-- Does what is due at a time. Listings come before ticks. -/
def perform (now : Timestamp) (s : Session) (time : Nat) : Session :=
  let s := { s with clock := time }
  if s.controllers.any fun k => k.feeds.listingAt? == some time then
    let (controllers, connection) := Controller.listAll time s.controllers s.connection
    { s with controllers, connection }
  else s.ticks now

def advance (now : Timestamp) (limit : Nat) : Nat → Session → Session
  | 0, s => s
  | steps + 1, s =>
      match (Controller.dueAt? s.controllers).filter (· ≤ limit) with
      | none => s
      | some time => advance now limit steps (s.perform now time)

/-- Lets time pass. Ticks and listings of one feed are further apart than a millisecond, which
bounds their number. -/
def wait (now : Timestamp) (duration : Nat) (s : Session) : Session :=
  let limit := s.clock + duration
  let steps := (4 * duration + 8) * s.controllers.length
  { s.advance now limit steps with clock := limit }

/-- Starts a controller, beside those that run already. It lists its collections as soon as time
passes. -/
def start (s : Session) : Session :=
  { s with controllers := s.controllers ++ [Controller.start s.clock] }

def renew (s : Session) (fault : Option Fault) : Session :=
  { s with connection := s.connection.renew fault }

end Session

end TunnelFleet
