import TunnelFleet.Object.Meta

namespace TunnelFleet

structure Condition where
  lastTransition : Option Timestamp := none
  lastUpdate : Option Timestamp := none
  message : Option String := none
  reason : Option String := none
  status : String := ""
  kind : String := ""
deriving DecidableEq

/-- The certificate is kept in its written base64 form. -/
structure SigningStatus where
  certificate : Option String := none
  conditions : Option (List Condition) := none
deriving DecidableEq

structure SigningSpec where
  expirationSeconds : Option Int := none
  extra : Option (Dict (List String)) := none
  groups : Option (List String) := none
  request : String := ""
  signerName : String := ""
  uid : Option String := none
  usages : Option (List String) := none
  username : Option String := none
deriving DecidableEq

structure SigningRequest where
  metadata : Meta := {}
  spec : SigningSpec := {}
  status : Option SigningStatus := none
deriving DecidableEq

instance : Inhabited SigningRequest :=
  ⟨{}⟩

namespace SigningRequest

def apiVersion : String :=
  "certificates.k8s.io/v1"

def kind : String :=
  "CertificateSigningRequest"

end SigningRequest

end TunnelFleet
