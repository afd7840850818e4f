namespace TunnelFleet.Decimal

def digitValue? (c : Char) : Option Nat :=
  if '0' ≤ c ∧ c ≤ '9' then some (c.toNat - '0'.toNat) else none

def digitsFrom? : Nat → List Char → Option Nat
  | acc, [] => some acc
  | acc, c :: cs => (digitValue? c).bind fun d => digitsFrom? (10 * acc + d) cs

def digits? : List Char → Option Nat
  | [] => none
  | c :: cs => digitsFrom? 0 (c :: cs)

/-- Reads a number of at most `limit`: digits with any number of leading zeros, after an optional
plus sign. -/
def unsigned? (limit : Nat) (s : String) : Option Nat :=
  let body := match s.toList with
    | '+' :: cs => cs
    | cs => cs
  (digits? body).filter (· ≤ limit)

end TunnelFleet.Decimal
