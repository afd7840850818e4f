import TunnelFleet.Names
import TunnelFleet.Object.SigningRequest

namespace TunnelFleet.SigningRequest

def isAnswered (request : SigningRequest) : Bool :=
  request.status.any fun status =>
    status.certificate.isSome || status.conditions.any fun conditions => !conditions.isEmpty

/-- Whether the request awaits an answer and belongs to exactly one node. -/
def isPending (request : SigningRequest) : Bool :=
  (request.metadata.soleOwner?.any fun owner => owner.kind == "Node") && !request.isAnswered

def isOf (request : SigningRequest) (nodeName nodeUid : String) : Bool :=
  ((request.metadata.owners.bind List.head?).any fun owner => owner.uid == nodeUid) &&
    request.spec.username == some (Names.serviceAccount nodeName) &&
    request.spec.usages.any fun usages => usages.contains "server auth"

def approval (now : Timestamp) : SigningStatus where
  conditions := some [{
    kind := "Approved"
    status := "True"
    reason := some "PetAutoApproved"
    message := some "Auto approved by kube-pet-node's cluster node-controller"
    lastTransition := some now
    lastUpdate := some now }]

def approved (request : SigningRequest) (now : Timestamp) : SigningRequest :=
  { request with status := some (approval now) }

end TunnelFleet.SigningRequest
