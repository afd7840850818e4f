import TunnelFleet.Decimal.Binary

namespace TunnelFleet.Decimal

/-- Whether a natural number reads back as the float `significand * unit`. The float below a power
of two is only half as far away, unless it is among the least ones; the ends of the interval belong
to it when the significand is even. -/
def readsBack (significand unit : Nat) (isLeast : Bool) (n : Nat) : Bool :=
  let value := 4 * (significand * unit)
  let above := 2 * unit
  let below := if significand = hidden ∧ !isLeast then unit else above
  if significand % 2 = 0 then value ≤ 4 * n + below && 4 * n ≤ value + above
  else value < 4 * n + below && 4 * n < value + above

def roundTo? (significand unit : Nat) (isLeast : Bool) (places : Nat) : Option Nat :=
  let value := significand * unit
  let ten := Nat.pow 10 places
  let low := value / ten * ten
  let high := low + ten
  match readsBack significand unit isLeast low, readsBack significand unit isLeast high with
  | true, true => some (if value - low ≤ high - value then low else high)
  | true, false => some low
  | false, true => some high
  | false, false => none

/-- The roundest multiple of a power of ten, from `places` zeros down, that reads back. -/
def roundest (significand unit : Nat) (isLeast : Bool) : Nat → Nat
  | 0 => significand * unit
  | places + 1 =>
      (roundTo? significand unit isLeast (places + 1)).getD
        (roundest significand unit isLeast places)

namespace Binary

def unit (x : Binary) : Nat :=
  if 0 ≤ x.power then 1 <<< x.power.toNat else Nat.pow 5 (-x.power).toNat

def tens (x : Binary) : Int :=
  min x.power 0

def shortest (x : Binary) : Nat :=
  roundest x.significand x.unit (x.power == leastPower)
    (Nat.toDigits 10 (x.significand * x.unit)).length

/-- The fewest digits that read back, and the power of ten of the last of them. -/
def digits (x : Binary) : List Char × Int :=
  let all := Nat.toDigits 10 x.shortest
  let kept := (all.reverse.dropWhile (· == '0')).reverse
  if kept.isEmpty then (['0'], 0) else (kept, x.tens + (all.length - kept.length : Nat))

/-- A point somewhere in the digits as long as the number has few places, else one digit before the
point and a power of ten. -/
def magnitudeText (ds : List Char) (exponent : Int) : String :=
  let point : Int := ds.length + exponent
  let zeros (count : Int) : List Char := List.replicate count.toNat '0'
  if 0 ≤ exponent ∧ point ≤ 16 then String.ofList (ds ++ zeros exponent) ++ ".0"
  else if 0 < point ∧ point ≤ 16 then
    String.ofList (ds.take point.toNat) ++ "." ++ String.ofList (ds.drop point.toNat)
  else if -5 < point ∧ point ≤ 0 then "0." ++ String.ofList (zeros (-point) ++ ds)
  else
    let places := if ds.length ≤ 1 then "" else "." ++ String.ofList (ds.drop 1)
    String.ofList (ds.take 1) ++ places ++ "e" ++ toString (point - 1)

def text (x : Binary) : String :=
  (if x.negative then "-" else "") ++ magnitudeText x.digits.1 x.digits.2

end Binary

def throughFloat (n : Nat) : Nat :=
  if n < 2 * hidden then n
  else
    match Binary.nearest? n 1 with
    | none => n
    | some x => x.shortest

end TunnelFleet.Decimal
