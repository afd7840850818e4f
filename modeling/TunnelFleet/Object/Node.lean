import TunnelFleet.Object.Meta

namespace TunnelFleet

structure Taint where
  effect : String := ""
  key : String := ""
  timeAdded : Option Timestamp := none
  value : Option String := none
deriving DecidableEq

structure SettingsSource where
  settingsKey : String := ""
  name : String := ""
  nameSpace : String := ""
  resourceVersion : Option String := none
  uid : Option String := none
deriving DecidableEq

structure NodeSpec where
  settings : Option (Option SettingsSource) := none
  externalID : Option String := none
  podCIDR : Option String := none
  podCIDRs : Option (List String) := none
  providerID : Option String := none
  taints : Option (List Taint) := none
  unschedulable : Option Bool := none
deriving DecidableEq

structure Node where
  metadata : Meta := {}
  spec : Option NodeSpec := none
deriving DecidableEq

instance : Inhabited Node :=
  ⟨{}⟩

end TunnelFleet
