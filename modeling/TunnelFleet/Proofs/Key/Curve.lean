import Mathlib.Data.ZMod.Basic
import Mathlib.Tactic.Ring
import TunnelFleet.Key.Curve

namespace TunnelFleet.Curve

theorem prime_pos : 0 < prime := by decide

/-- After some steps the power is that of the highest bits of the exponent. -/
theorem power_eq {base exponent bits : Nat} (h : exponent < 2 ^ 255) (hbits : bits ≤ 255) :
    power base exponent bits = base ^ (exponent / 2 ^ (255 - bits)) % prime := by
  induction bits with
  | zero =>
    rw [power, Nat.sub_zero, Nat.div_eq_of_lt h, Nat.pow_zero]
    decide
  | succ bits ih =>
    have hplace : 255 - bits = 255 - (bits + 1) + 1 := by omega
    rw [power, ih (by omega), hplace, Nat.pow_succ, ← Nat.div_div_eq_div_mul]
    simp only [Nat.testBit_eq_decide_div_mod_eq, decide_eq_true_eq]
    generalize exponent / 2 ^ (255 - (bits + 1)) = high
    have hsquare : base ^ (high / 2) % prime * (base ^ (high / 2) % prime) % prime =
        base ^ (2 * (high / 2)) % prime := by
      rw [← Nat.mul_mod, ← Nat.pow_add, Nat.two_mul]
    rw [hsquare]
    split
    next hodd =>
      have hhigh : (2 * (high / 2)).succ = high := by omega
      rw [Nat.mod_mul_mod, ← Nat.pow_succ, hhigh]
    next heven =>
      have hhigh : 2 * (high / 2) = high := by omega
      rw [hhigh]

theorem inverse_eq (n : Nat) : inverse n = n ^ (prime - 2) % prime := by
  rw [inverse, power_eq (by decide) (Nat.le_refl _), Nat.sub_self, Nat.pow_zero, Nat.div_one]

section Field

variable {a b : Nat}

theorem cast_mod (a : Nat) : ((a % prime : Nat) : ZMod prime) = a :=
  ZMod.natCast_mod a prime

theorem cast_sub (h : b ≤ prime) : ((a + (prime - b) : Nat) : ZMod prime) = a - b := by
  rw [Nat.cast_add, Nat.cast_sub h, ZMod.natCast_self]
  ring

theorem cast_sub_mod (a b : Nat) :
    ((a + (prime - b % prime) : Nat) : ZMod prime) = a - b := by
  rw [cast_sub (Nat.le_of_lt (Nat.mod_lt b prime_pos)), cast_mod]

structure Rungs.IsReduced (r : Rungs) : Prop where
  z₁ : r.z₁ ≤ prime
  z₂ : r.z₂ ≤ prime

theorem isReduced_climb (u : Nat) (bit : Bool) (r : Rungs) : (r.climb u bit).IsReduced := by
  have hdouble (r : Rungs) : (r.double u).IsReduced :=
    ⟨Nat.le_of_lt (Nat.mod_lt _ prime_pos), Nat.le_of_lt (Nat.mod_lt _ prime_pos)⟩
  cases bit with
  | false => exact hdouble r
  | true => exact ⟨(hdouble r.swap).z₂, (hdouble r.swap).z₁⟩

theorem isReduced_ladder {r : Rungs} (u multiplier bits : Nat) (h : r.IsReduced) :
    (ladder u multiplier bits r).IsReduced := by
  induction bits generalizing r with
  | zero => exact h
  | succ bits ih => exact ih (isReduced_climb u _ r)

/-- A step doubles the first point of the curve `y² = x³ + 486662 x² + x` and adds the second one to
it, from which it differs by the point with first coordinate `u`. -/
theorem cast_double (u : Nat) {r : Rungs} (h : r.IsReduced) :
    ((r.double u).x₁ : ZMod prime) = (r.x₁ ^ 2 - r.z₁ ^ 2) ^ 2 ∧
      ((r.double u).z₁ : ZMod prime) =
        4 * (r.x₁ * r.z₁) * (r.x₁ ^ 2 + 486662 * (r.x₁ * r.z₁) + r.z₁ ^ 2) ∧
      ((r.double u).x₂ : ZMod prime) = 4 * (r.x₁ * r.x₂ - r.z₁ * r.z₂) ^ 2 ∧
      ((r.double u).z₂ : ZMod prime) = 4 * u * (r.x₁ * r.z₂ - r.z₁ * r.x₂) ^ 2 := by
  simp only [Rungs.double]
  refine ⟨?_, ?_, ?_, ?_⟩ <;>
    simp only [cast_mod, ↓cast_sub_mod, ↓cast_sub h.z₁, ↓cast_sub h.z₂, Nat.cast_mul, Nat.cast_add,
      Nat.cast_ofNat] <;> ring

theorem cast_multiple (multiplier u : Nat) : (multiple multiplier u : ZMod prime) =
    (ladder u multiplier 255 ⟨1, 0, u, 1⟩).x₁ *
      (ladder u multiplier 255 ⟨1, 0, u, 1⟩).z₁ ^ (prime - 2) := by
  rw [multiple, cast_mod, Nat.cast_mul, inverse_eq, cast_mod, Nat.cast_pow]

end Field

theorem multiple_lt (multiplier u : Nat) : multiple multiplier u < prime :=
  Nat.mod_lt _ prime_pos

end TunnelFleet.Curve
