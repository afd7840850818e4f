import TunnelFleet.Ini.Reader
import TunnelFleet.Key.Base64
import TunnelFleet.Key.Curve
import TunnelFleet.Text.Basic

namespace TunnelFleet

inductive KeyError where
  | notBase64 (fault : Base64.Fault)
  | wrongLength (length : Nat)
  | unreadable (fault : Ini.Fault)
  | absent
deriving DecidableEq

def KeyError.detail : KeyError → String
  | .notBase64 fault => "private key is not base64: " ++ fault.message
  | .wrongLength length => "private key is " ++ toString length ++ " bytes, expected 32"
  | .unreadable fault => fault.message
  | .absent => "no [Interface] PrivateKey in config"

namespace Identity

def utf8 (cs : List Char) : List UInt8 :=
  cs.flatMap String.utf8EncodeChar

/-- The public key of a private key text; white space around it does not count. -/
def publicKey (secret : String) : Except KeyError String :=
  match Base64.decode (utf8 (Text.trim secret.toList)) with
  | .error fault => .error (.notBase64 fault)
  | .ok bytes =>
      if bytes.length ≠ 32 then .error (.wrongLength bytes.length)
      else .ok (Base64.text (Curve.publicKey bytes))

/-- The public key of a tunnel file. Only what stands before the first peer counts. -/
def ofTunnelFile (file : String) : Except KeyError String :=
  match Ini.Document.ofText (String.ofList (Text.before "[Peer]".toList file.toList)) with
  | .error fault => .error (.unreadable fault)
  | .ok doc =>
      match (doc.section? "Interface").bind fun part => Ini.value? part.entries "PrivateKey" with
      | none => .error .absent
      | some secret => publicKey secret

end Identity

end TunnelFleet
