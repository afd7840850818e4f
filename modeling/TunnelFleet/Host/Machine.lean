import TunnelFleet.Api.Connection
import TunnelFleet.Host.Disk
import TunnelFleet.Peers.Installer
import TunnelFleet.Peers.Snapshot

namespace TunnelFleet

open Api (Connection)

inductive ServiceEnd where
  | exited (code : Nat)
  | killed
deriving DecidableEq

/-- The code is one byte; there is none after a signal. -/
def ServiceEnd.code : ServiceEnd → Int
  | .exited code => (code % 256 : Nat)
  | .killed => -1

structure Machine where
  disk : Disk
  manager : Option ServiceEnd
  asked : Option (List String) := none
  link : Except HostFault Connection

/-- What a router controller does on its machine is for an interface, and its notes say which host
and which time. -/
structure Operator where
  interface : String
  host : Option String
  now : Timestamp
  suffix : String

namespace Machine

def restart (m : Machine) (interface : String) : Except Failure Int × Machine :=
  match m.manager with
  | none => (.error (.host .notFound), m)
  | some found =>
      (.ok found.code, { m with asked := some ["restart", "--", Names.tunnelUnit interface] })

def record (m : Machine) (operator : Operator) (snapshot : PeerSnapshot) (exitCode : Int) :
    Except Failure Unit × Machine :=
  match m.link with
  | .error fault => (.error (.cluster (.disconnected fault)), m)
  | .ok connection =>
      let event := snapshot.restartEvent exitCode operator.host operator.now operator.suffix
      match connection.record event with
      | (.ok (), connection) => (.ok (), { m with link := .ok connection })
      | (.error fault, connection) =>
          (.error (.cluster fault), { m with link := .ok connection })

def actions (operator : Operator) (path : String) : HostActions Machine where
  read m := m.disk.read path
  write m text :=
    let (result, disk) := m.disk.write path text
    (result, { m with disk })
  restart m := m.restart operator.interface
  record m snapshot exitCode := m.record operator snapshot exitCode

end Machine

end TunnelFleet
