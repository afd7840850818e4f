namespace TunnelFleet.Curve

def prime : Nat :=
  (1 <<< 255) - 19

/-- A power modulo the prime, by repeated squaring over the bits of the exponent. -/
def power (base exponent : Nat) : Nat → Nat
  | 0 => 1
  | bits + 1 =>
      let half := power base exponent bits
      let square := half * half % prime
      if exponent.testBit (255 - (bits + 1)) then square * base % prime else square

/-- The inverse of a field element, and zero for zero. -/
def inverse (n : Nat) : Nat :=
  power n (prime - 2) 255

/-- Two neighbouring multiples of a point, each as a quotient of field elements. -/
structure Rungs where
  x₁ : Nat
  z₁ : Nat
  x₂ : Nat
  z₂ : Nat

namespace Rungs

def swap (r : Rungs) : Rungs :=
  ⟨r.x₂, r.z₂, r.x₁, r.z₁⟩

/-- From the multiples `n` and `n + 1` to `2 n` and `2 n + 1`. -/
def double (u : Nat) (r : Rungs) : Rungs :=
  let a := r.x₁ + r.z₁
  let b := r.x₁ + (prime - r.z₁)
  let aa := a * a % prime
  let bb := b * b % prime
  let e := (aa + (prime - bb)) % prime
  let da := (r.x₂ + (prime - r.z₂)) * a % prime
  let cb := (r.x₂ + r.z₂) * b % prime
  let sum := da + cb
  let difference := da + (prime - cb)
  { x₁ := aa * bb % prime
    z₁ := e * ((aa + 121665 * e) % prime) % prime
    x₂ := sum * sum % prime
    z₂ := u * (difference * difference % prime) % prime }

def climb (u : Nat) (bit : Bool) (r : Rungs) : Rungs :=
  if bit then ((r.swap).double u).swap else r.double u

end Rungs

/-- The ladder over the lowest `bits` bits of a multiplier, highest first. -/
def ladder (u multiplier : Nat) : Nat → Rungs → Rungs
  | 0, r => r
  | bits + 1, r => ladder u multiplier bits (r.climb u (multiplier.testBit bits))

/-- The first coordinate of a multiple of the point with first coordinate `u`. -/
def multiple (multiplier u : Nat) : Nat :=
  let r := ladder u multiplier 255 ⟨1, 0, u, 1⟩
  r.x₁ * inverse r.z₁ % prime

def ofBytes : List UInt8 → Nat
  | [] => 0
  | b :: rest => b.toNat + 256 * ofBytes rest

def toBytes : Nat → Nat → List UInt8
  | 0, _ => []
  | count + 1, n => UInt8.ofNat (n % 256) :: toBytes count (n / 256)

/-- Clears the three lowest bits and the highest, and sets the one below that. -/
def clamp (n : Nat) : Nat :=
  let top := 1 <<< 254
  n % top / 8 * 8 + top

/-- The public key of a private one: a multiple of the base point, whose first coordinate is
nine. -/
def publicKey (secret : List UInt8) : List UInt8 :=
  toBytes 32 (multiple (clamp (ofBytes secret)) 9)

end TunnelFleet.Curve
