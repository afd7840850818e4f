import Mathlib.Data.List.Basic
import TunnelFleet.Key.Identity

namespace TunnelFleet.Identity

variable {file secret key : String}

theorem publicKey_eq_ok_iff : publicKey secret = .ok key ↔
    ∃ bytes, Base64.decode (utf8 (Text.trim secret.toList)) = .ok bytes ∧ bytes.length = 32 ∧
      Base64.text (Curve.publicKey bytes) = key := by
  unfold publicKey
  cases hdecode : Base64.decode (utf8 (Text.trim secret.toList)) with
  | error fault => simp
  | ok bytes =>
    by_cases hlength : bytes.length = 32
    · simp [hlength]
    · simp [hlength]

def countingSecret : String :=
  "AAECAwQFBgcICQoLDA0ODxAREhMUFRYXGBkaGxwdHh8="

theorem publicKey_countingSecret : publicKey countingSecret =
    .ok (Base64.text (Curve.publicKey ((List.range 32).map UInt8.ofNat))) := by
  have hbytes : Base64.decode (utf8 (Text.trim countingSecret.toList)) =
      .ok ((List.range 32).map UInt8.ofNat) := by decide +kernel
  exact publicKey_eq_ok_iff.mpr ⟨_, hbytes, by decide, rfl⟩

theorem ofTunnelFile_eq_ok_iff : ofTunnelFile file = .ok key ↔
    ∃ doc, Ini.Document.ofText (String.ofList (Text.before "[Peer]".toList file.toList)) = .ok doc ∧
      ∃ secret, ((doc.section? "Interface").bind fun part =>
          Ini.value? part.entries "PrivateKey") = some secret ∧ publicKey secret = .ok key := by
  unfold ofTunnelFile
  cases hdoc : Ini.Document.ofText (String.ofList (Text.before "[Peer]".toList file.toList)) with
  | error fault => simp
  | ok doc =>
    cases hsecret : (doc.section? "Interface").bind fun part =>
        Ini.value? part.entries "PrivateKey" with
    | none => simp [hsecret]
    | some secret => simp [hsecret]

end TunnelFleet.Identity
