import TunnelFleet.Program.NodeController
import TunnelFleet.Program.RouterController

namespace TunnelFleet.Main

def environmentNames : List String :=
  ["KUBE_PET_METRICS_ADDR", "KUBE_PET_INTERFACE", "KUBE_PET_CONFIG_PATH", "HOSTNAME"]

def environment : IO (List (String × String)) := do
  let found ← environmentNames.mapM fun name => do
    return (← IO.getEnv name).map fun value => (name, value)
  return found.filterMap id

/-- The disk as far as one path is concerned. What is there and cannot be read is taken for a
directory. -/
def disk (path : String) : IO Disk := do
  let names := Disk.names path
  let root := if Disk.isAbsolute path then "/" else ""
  let directory := root ++ String.intercalate "/" names.dropLast
  try
    let raw ← IO.FS.readBinFile path
    return ⟨directory, Dict.empty.insert ((names.getLast?).getD "") (.ofBytes raw.toList)⟩
  catch
    | .noFileOrDirectory .. => return ⟨directory, .empty⟩
    | _ => return ⟨path, .empty⟩

/-- This machine. It has no way to a cluster, and no time passes on it. -/
def machine (path : String) : IO Machine := do
  return ⟨← disk path, none, none, .error .noRoute⟩

def now : Timestamp :=
  { seconds := 0 }

def tunnelPath (args : List String) (environment : List (String × String)) : String :=
  match RouterArguments.read args environment with
  | .ok arguments => arguments.configPath
  | .error _ => ""

def finish : Ending → IO UInt32
  | .endless => return 5
  | .exited code complaint => do
      (← IO.getStderr).putStr complaint
      return code.toUInt32

def runNode (args : List String) : IO UInt32 := do
  let (ending, _) := NodeController.run now args (← environment) (← machine "")
  finish ending

def runRouter (args : List String) : IO UInt32 := do
  let environment ← environment
  let m ← machine (tunnelPath args environment)
  let (ending, _) := RouterController.run now "" args environment m
  finish ending

end TunnelFleet.Main

def main : List String → IO UInt32
  | "node" :: args => TunnelFleet.Main.runNode args
  | "router" :: args => TunnelFleet.Main.runRouter args
  | _ => return 2
