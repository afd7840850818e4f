import TunnelFleet.Decimal.Unsigned

namespace TunnelFleet.Decimal

/-- `num / den` to the nearest natural number, a half to the even one. -/
def roundHalfEven (num den : Nat) : Nat :=
  let quotient := num / den
  let twice := 2 * (num % den)
  if twice < den ∨ (twice = den ∧ quotient % 2 = 0) then quotient else quotient + 1

/-- The highest bit of a full significand, `2 ^ 52`. -/
def hidden : Nat :=
  4503599627370496

/-- A number of the grid of binary floats, `significand * 2 ^ power`. Its significand is below
`2 ^ 53`, and not below `2 ^ 52` unless the power is the least one. Zero has a sign too. -/
structure Binary where
  negative : Bool
  significand : Nat
  power : Int
deriving DecidableEq

namespace Binary

def leastPower : Int :=
  -1074

def greatestPower : Int :=
  971

def zero : Binary :=
  ⟨false, 0, leastPower⟩

def isZero (x : Binary) : Bool :=
  x.significand == 0

def ratio (x : Binary) : Nat × Nat :=
  (x.significand <<< x.power.toNat, 1 <<< (-x.power).toNat)

def significandAt (num den : Nat) (power : Int) : Nat :=
  roundHalfEven (num <<< (-power).toNat) (den <<< power.toNat)

def powerFor (num den : Nat) : Int :=
  let power : Int := (num.log2 : Int) - den.log2 - 52
  let floor := (num <<< (-power).toNat) / (den <<< power.toNat)
  max leastPower (if floor < hidden then power - 1 else power)

def nearest? (num den : Nat) : Option Binary :=
  if num = 0 then some zero
  else
    let power := powerFor num den
    let significand := significandAt num den power
    let (significand, power) :=
      if significand = 2 * hidden then (hidden, power + 1) else (significand, power)
    if greatestPower < power then none else some ⟨false, significand, power⟩

def times? (x y : Binary) : Option Binary :=
  nearest? (x.ratio.1 * y.ratio.1) (x.ratio.2 * y.ratio.2)

def over? (x y : Binary) : Option Binary :=
  nearest? (x.ratio.1 * y.ratio.2) (x.ratio.2 * y.ratio.1)

def tenTo? (n : Nat) : Option Binary :=
  nearest? (Nat.pow 10 n) 1

def greatestTen : Nat :=
  308

/-- A natural number times a power of ten, in one step for the number, one for the power and one for
the product. A power too small for the grid is divided by in two steps, and what is left after them
is zero. -/
def scaled? (n : Nat) (exponent : Int) : Option Binary := do
  let x ← nearest? n 1
  let places := exponent.natAbs
  if places ≤ greatestTen then
    let ten ← tenTo? places
    if 0 ≤ exponent then x.times? ten else x.over? ten
  else if x.isZero then some zero
  else if 0 ≤ exponent then none
  else
    let rest := places - greatestTen
    if rest ≤ greatestTen then
      let x ← x.over? (← tenTo? greatestTen)
      x.over? (← tenTo? rest)
    else some zero

/-- One number for every value: the two zeros are the same. -/
def unsignedZero (x : Binary) : Binary :=
  if x.isZero then zero else x

end Binary

end TunnelFleet.Decimal
