import TunnelFleet.Host.Machine
import TunnelFleet.Program.Ending

namespace TunnelFleet.NodeController

open Api (Connection)

def once (now : Timestamp) (c : Connection) : Except Failure Report × Connection :=
  match c.list with
  | (.error fault, c) => (.error (.cluster fault), c)
  | (.ok snapshot, c) => (reconcile now snapshot).run Connection.answer c

/-- The whole program. Without a limit to one tick it never ends. -/
def run (now : Timestamp) (args : List String) (environment : List (String × String))
    (m : Machine) : Ending × Machine :=
  match NodeArguments.read args environment with
  | .error problem => (.ofUsage problem, m)
  | .ok arguments =>
      if !arguments.once then (.endless, m)
      else
        match m.link with
        | .error fault => (.ofFailure (.cluster (.disconnected fault)), m)
        | .ok connection =>
            match once now connection with
            | (.ok _, connection) => (.finished, { m with link := .ok connection })
            | (.error failure, connection) =>
                (.ofFailure failure, { m with link := .ok connection })

end TunnelFleet.NodeController
