import TunnelFleet.Decimal.Unsigned
import TunnelFleet.Ini.Reader
import TunnelFleet.Networking.Basic

namespace TunnelFleet

inductive NetworkingError where
  | unreadable (fault : Ini.Fault)
  | noNodeRange
  | unknownMode (text : String)
  | missing (key : String)
  | badPodLen (text : String)
  | notANumber (key text : String)
deriving DecidableEq

def NetworkingError.detail : NetworkingError → String
  | .unreadable fault => fault.message
  | .noNodeRange => "NodeRange is required"
  | .unknownMode text => "unknown WireguardMode " ++ Text.quoted text
  | .missing key => "[Router] section is missing " ++ key
  | .badPodLen text => "bad PodPrefixLen " ++ Text.quoted text
  | .notANumber key text => key ++ " is not a number: " ++ Text.quoted text

def NetworkingError.message : NetworkingError → String
  | .unreadable fault => "Networking config parse error: " ++ fault.message
  | e => "Invalid networking config: " ++ e.detail

def Mode.ofText (s : String) : Except NetworkingError Mode :=
  match Mode.ofText? s with
  | some mode => .ok mode
  | none => .error (.unknownMode s)

namespace Router

def required (entries : List (String × String)) (key : String) :
    Except NetworkingError String :=
  match Ini.value? entries key with
  | some text => .ok text
  | none => .error (.missing key)

def ofEntries (entries : List (String × String)) : Except NetworkingError Router := do
  let podLenText ← required entries "PodPrefixLen"
  match (Decimal.unsigned? 255 podLenText).filter (· ≤ 32) with
  | none => .error (.badPodLen podLenText)
  | some podLen =>
      let publicKey ← required entries "PublicKey"
      let endpoint ← required entries "Endpoint"
      let nodePool ← required entries "NodePool"
      let podPool ← required entries "PodPool"
      .ok ⟨publicKey, endpoint, nodePool, podPool, podLen⟩

end Router

namespace Networking

def optionalMode (entries : List (String × String)) : Except NetworkingError (Option Mode) :=
  match Ini.value? entries "WireguardMode" with
  | none => .ok none
  | some text => (Mode.ofText text).map some

def optionalNumber (entries : List (String × String)) (key : String) :
    Except NetworkingError (Option Nat) :=
  match Ini.value? entries key with
  | none => .ok none
  | some text =>
      match Decimal.unsigned? 4294967295 text with
      | some number => .ok (some number)
      | none => .error (.notANumber key text)

def ofDocument (doc : Ini.Document) : Except NetworkingError Networking := do
  match (Ini.value? doc.general "NodeRange").filter (· ≠ "") with
  | none => .error .noNodeRange
  | some nodeRange =>
      let sections := doc.sections.filter fun part => part.name == "Router"
      let routers ← sections.mapM fun part => Router.ofEntries part.entries
      let mode ← optionalMode doc.general
      let cniNumber ← optionalNumber doc.general "CniNumber"
      let cniMtu ← optionalNumber doc.general "CniMtu"
      .ok {
        nodeRange
        podRange := (Ini.value? doc.general "PodRange").getD ""
        serviceRange := (Ini.value? doc.general "ServiceRange").getD ""
        mode
        cniNumber
        cniMtu
        routers }

def ofText (s : String) : Except NetworkingError Networking :=
  match Ini.Document.ofText s with
  | .error fault => .error (.unreadable fault)
  | .ok doc => ofDocument doc

end Networking

end TunnelFleet
