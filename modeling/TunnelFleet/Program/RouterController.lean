import TunnelFleet.Host.Machine
import TunnelFleet.Program.Ending

namespace TunnelFleet.RouterController

def install (arguments : RouterArguments) (now : Timestamp) (suffix routerKey : String)
    (m : Machine) : Ending × Machine :=
  match m.link with
  | .error fault => (.ofCauses (ClusterFault.disconnected fault).causes, m)
  | .ok connection =>
      match connection.listConfigMaps with
      | (.error fault, connection) =>
          (.ofCauses fault.causes, { m with link := .ok connection })
      | (.ok page, connection) =>
          let operator : Operator := ⟨arguments.interface, arguments.host, now, suffix⟩
          let (result, _, m) := Installer.handle (Machine.actions operator arguments.configPath)
            routerKey page.objects Seen.nothing { m with link := .ok connection }
          match result with
          | .ok _ => (.finished, m)
          | .error failure => (.ofFailure failure, m)

/-- The whole program. It reads its own key before anything else, and without a limit to one
installation it never ends. -/
def run (now : Timestamp) (suffix : String) (args : List String)
    (environment : List (String × String)) (m : Machine) : Ending × Machine :=
  match RouterArguments.read args environment with
  | .error problem => (.ofUsage problem, m)
  | .ok arguments =>
      match m.disk.read arguments.configPath with
      | .error fault => (.failed ("reading " ++ arguments.configPath) [fault.text], m)
      | .ok installed =>
          match Identity.ofTunnelFile installed with
          | .error problem => (.ofFailure (.badKey problem), m)
          | .ok routerKey =>
              if arguments.once then install arguments now suffix routerKey m
              else (.endless, m)

end TunnelFleet.RouterController
