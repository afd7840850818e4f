import TunnelFleet.Allocation.Search
import TunnelFleet.Allocation.Text
import TunnelFleet.Json.Problem
import TunnelFleet.Key.Identity
import TunnelFleet.Names
import TunnelFleet.Networking.Reader

namespace TunnelFleet

structure Refusal where
  status : String
  message : String
  reason : String
  code : Nat
deriving DecidableEq

namespace Refusal

def summary (r : Refusal) : String :=
  r.message ++ ": " ++ r.reason

def text (r : Refusal) : String :=
  "ApiError: " ++ r.summary ++ " (ErrorResponse \x7b status: " ++ Text.quoted r.status ++
    ", message: " ++ Text.quoted r.message ++ ", reason: " ++ Text.quoted r.reason ++
    ", code: " ++ toString r.code ++ " \x7d)"

end Refusal

inductive HostFault where
  | notFound
  | isDirectory
  | notDirectory
  | notText
  | addressInUse
  | noRoute
  | nameTooLong
  | other (text : String)
deriving DecidableEq

def HostFault.text : HostFault → String
  | .notFound => "No such file or directory (os error 2)"
  | .isDirectory => "Is a directory (os error 21)"
  | .notDirectory => "Not a directory (os error 20)"
  | .notText => "stream did not contain valid UTF-8"
  | .addressInUse => "Address already in use (os error 98)"
  | .noRoute => "Network is unreachable (os error 101)"
  | .nameTooLong => "File name too long (os error 36)"
  | .other text => text

/-- Why a request cannot be made: it names nothing, or with a name that no path can hold. -/
inductive RequestFault where
  | noName
  | badCharacter
deriving DecidableEq

namespace RequestFault

def causes : RequestFault → List String
  | .noName => ["failed to validate request: A non-empty name is required"]
  | .badCharacter =>
      ["failed to build request: invalid uri character", "invalid uri character"]

end RequestFault

/-- Why a call brings nothing back from the cluster: it was refused, its request could not be made,
the cluster could not be reached, or what it said could not be read. -/
inductive ClusterFault where
  | refused (refusal : Refusal)
  | unsendable (fault : RequestFault)
  | disconnected (fault : HostFault)
  | unreadable (fault : Json.Fault)
deriving DecidableEq

namespace ClusterFault

def causes : ClusterFault → List String
  | .refused refusal => [refusal.text, refusal.summary]
  | .unsendable fault => ("Failed to build request: " ++ fault.causes.headD "") :: fault.causes
  | .disconnected fault =>
      ["ServiceError: client error (Connect)", "client error (Connect)", "tcp connect error",
        fault.text]
  | .unreadable fault => ["Error deserializing response: " ++ fault.text, fault.text]

def text (f : ClusterFault) : String :=
  f.causes.headD ""

end ClusterFault

inductive Failure where
  | noClusterConfig
  | search (error : SearchError)
  | unknownRouter (publicKey : String)
  | badKey (error : KeyError)
  | networking (error : NetworkingError)
  | table (error : TableError)
  | cluster (fault : ClusterFault)
  | host (fault : HostFault)
deriving DecidableEq

namespace Failure

def message : Failure → String
  | .noClusterConfig =>
      "Didn't see a " ++ Names.clusterConfig ++ " ConfigMap, it is required to do anything"
  | .search (.badBlock role text cause) =>
      "Invalid configuration: bad " ++ role.text ++ " " ++ Text.quoted text ++ ": " ++
        cause.message
  | .search .exhausted => "Failed to locate unallocated address space in any available router"
  | .unknownRouter publicKey =>
      "BUG: allocation references router " ++ publicKey ++ " which is not in the cluster config"
  | .badKey error => "Invalid WireGuard key: " ++ error.detail
  | .networking error => "API data error: " ++ error.message
  | .table error => "API data error: " ++ error.message
  | .cluster fault => "Kubernetes error: " ++ fault.text
  | .host fault => "IO error: " ++ fault.text

def causes : Failure → List String
  | .networking (.unreadable fault) =>
      [(NetworkingError.unreadable fault).message, fault.message]
  | .networking error => [error.message]
  | .table (.badColumns index record fault) =>
      [(TableError.badColumns index record fault).message,
        (TableError.badColumns index record fault).detail, fault.message]
  | .table error => [error.message, error.detail]
  | .cluster fault => fault.causes
  | .host fault => [fault.text]
  | _ => []

end Failure

end TunnelFleet
