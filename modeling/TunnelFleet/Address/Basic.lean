import TunnelFleet.Decimal.Unsigned
import TunnelFleet.Text.Basic

namespace TunnelFleet

/-- An IPv4 address, kept as its number. -/
structure Address where
  val : Nat
  lt : val < 4294967296
deriving DecidableEq

namespace Address

def octets (a : Address) : List Nat :=
  [a.val / 16777216, a.val / 65536 % 256, a.val / 256 % 256, a.val % 256]

def chars (a : Address) : List Char :=
  ((a.octets.map (Nat.toDigits 10)).intersperse ['.']).flatten

def text (a : Address) : String :=
  String.ofList a.chars

/-- An octet has one to three digits, no leading zero beside others, and is at most 255. -/
def octet? (cs : List Char) : Option Nat :=
  if cs.length ≤ 3 ∧ (cs.head? = some '0' → cs.length = 1) then
    (Decimal.digits? cs).filter (· ≤ 255)
  else none

def ofOctets? : List Nat → Option Address
  | [a, b, c, d] =>
      let val := ((a * 256 + b) * 256 + c) * 256 + d
      if h : val < 4294967296 then some ⟨val, h⟩ else none
  | _ => none

def ofChars? (cs : List Char) : Option Address :=
  ((Text.splitAt '.' cs).mapM octet?).bind ofOctets?

end Address

end TunnelFleet
