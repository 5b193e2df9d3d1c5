import Mathlib.Algebra.Order.Field.Basic
import Mathlib.Algebra.Order.Ring.Abs
import Mathlib.Algebra.Order.Ring.Cast
import Mathlib.Tactic.FieldSimp
import Mathlib.Tactic.Linarith
import Mathlib.Tactic.Positivity
import Mathlib.Tactic.Ring

/-!
# Interpolated halving in fixed point

A factor starts at a scale, is halved after every period by a shift, and falls
linearly in between; the interpolated part is rounded down.  The factor never
rises, and it stays within one unit of the exact piecewise linear curve, even
after the shift has lost all bits of the scale.
-/

namespace Halving

/-- The scale after the whole periods before a height. -/
def step (scale period height : ℕ) : ℕ := scale >>> (height / period)

/-- What the current period has taken off, rounded down. -/
def drop (scale period height : ℕ) : ℕ :=
  step scale period height * (height % period) / (2 * period)

/-- The fixed-point factor at a height. -/
def factor (scale period height : ℕ) : ℕ := step scale period height - drop scale period height

variable {scale period : ℕ}

/-- A period takes off at most one half. -/
theorem drop_le_half (positive : 0 < period) (height : ℕ) :
    drop scale period height ≤ step scale period height / 2 := by
  have within : height % period ≤ period := (Nat.mod_lt _ positive).le
  calc drop scale period height
      ≤ step scale period height * period / (2 * period) :=
        Nat.div_le_div_right (Nat.mul_le_mul_left _ within)
    _ = step scale period height / 2 := Nat.mul_div_mul_right _ _ positive

theorem drop_le_step (positive : 0 < period) (height : ℕ) :
    drop scale period height ≤ step scale period height :=
  (drop_le_half positive height).trans (Nat.div_le_self _ _)

theorem step_le_scale (height : ℕ) : step scale period height ≤ scale := by
  rw [step, Nat.shiftRight_eq_div_pow]
  exact Nat.div_le_self _ _

theorem factor_le_scale (height : ℕ) : factor scale period height ≤ scale :=
  (Nat.sub_le _ _).trans (step_le_scale height)

/-- Within one period the factor falls. -/
theorem factor_antitone_within {low high : ℕ} (same : low / period = high / period)
    (ordered : low ≤ high) : factor scale period high ≤ factor scale period low := by
  have steps : step scale period low = step scale period high := by rw [step, step, same]
  have remainders : low % period ≤ high % period := by
    have lowSplit := Nat.div_add_mod low period
    have highSplit := Nat.div_add_mod high period
    rw [same] at lowSplit
    omega
  have drops : drop scale period low ≤ drop scale period high := by
    rw [drop, drop, steps]
    exact Nat.div_le_div_right (Nat.mul_le_mul_left _ remainders)
  rw [factor, factor, steps]
  exact Nat.sub_le_sub_left drops _

/-- A later period starts at or below the half that the factor never falls below. -/
theorem factor_antitone_across (positive : 0 < period) {low high : ℕ}
    (later : low / period < high / period) :
    factor scale period high ≤ factor scale period low := by
  have halved : step scale period high ≤ step scale period low / 2 := by
    rw [step, step, Nat.shiftRight_eq_div_pow, Nat.shiftRight_eq_div_pow, Nat.div_div_eq_div_mul,
      ← pow_succ]
    exact Nat.div_le_div_left (Nat.pow_le_pow_right (by decide) later) (by positivity)
  have floor : drop scale period low ≤ step scale period low / 2 := drop_le_half positive low
  unfold factor
  omega

/-- The factor never rises. -/
theorem factor_antitone (positive : 0 < period) : Antitone (factor scale period) := by
  intro low high ordered
  cases Nat.lt_or_eq_of_le (Nat.div_le_div_right (c := period) ordered) with
  | inl later => exact factor_antitone_across positive later
  | inr same => exact factor_antitone_within same ordered

/-! ## The exact curve -/

section Curve

variable (K : Type) [Field K] [LinearOrder K] [IsStrictOrderedRing K]

/-- The exact piecewise linear curve, from one on. -/
def curve (period height : ℕ) : K :=
  (1 / 2) ^ (height / period) * (1 - ((height % period : ℕ) : K) / (2 * period))

theorem curve_nonneg (positive : 0 < period) (height : ℕ) : 0 ≤ curve K period height := by
  have within : ((height % period : ℕ) : K) ≤ period := by
    exact_mod_cast (Nat.mod_lt _ positive).le
  have room : (0 : K) < 2 * period := by positivity
  have part : ((height % period : ℕ) : K) / (2 * period) ≤ 1 := by
    rw [div_le_one room]
    linarith
  exact mul_nonneg (by positivity) (sub_nonneg.mpr part)

theorem curve_le (height : ℕ) : curve K period height ≤ (1 / 2) ^ (height / period) := by
  have part : 0 ≤ ((height % period : ℕ) : K) / (2 * period) := by positivity
  exact mul_le_of_le_one_right (by positivity) (by linarith)

/-- While the shift is exact, the factor lies above the curve by less than one unit. -/
theorem factor_sub_curve_of_le {bits : ℕ} (positive : 0 < period) {height : ℕ}
    (early : height / period ≤ bits) :
    0 ≤ (factor (2 ^ bits) period height : K) - 2 ^ bits * curve K period height ∧
      (factor (2 ^ bits) period height : K) - 2 ^ bits * curve K period height < 1 := by
  set level := step (2 ^ bits) period height with levelEq
  set part := drop (2 ^ bits) period height with partEq
  have exactLevel : (level : K) = 2 ^ bits * (1 / 2) ^ (height / period) := by
    rw [levelEq, step, Nat.shiftRight_eq_div_pow, Nat.pow_div early (by decide)]
    push_cast
    rw [pow_sub₀ _ two_ne_zero early, one_div, inv_pow]
  have room : (0 : K) < 2 * period := by positivity
  have curveEq : 2 ^ bits * curve K period height =
      level - level * ((height % period : ℕ) : K) / (2 * period) := by
    rw [curve, exactLevel]
    ring
  have factorEq : (factor (2 ^ bits) period height : K) = level - part := by
    rw [factor, Nat.cast_sub (drop_le_step positive height)]
  have below : (part : K) ≤ level * ((height % period : ℕ) : K) / (2 * period) := by
    rw [le_div_iff₀ room]
    exact_mod_cast Nat.div_mul_le_self (level * (height % period)) (2 * period)
  have above : level * ((height % period : ℕ) : K) / (2 * period) < part + 1 := by
    rw [div_lt_iff₀ room]
    have floor : level * (height % period) < (part + 1) * (2 * period) := by
      rw [Nat.mul_comm (part + 1)]
      exact Nat.lt_mul_div_succ _ (by omega)
    exact_mod_cast floor
  rw [curveEq, factorEq]
  constructor <;> linarith

/-- Once the shift has lost all bits, both are below one unit. -/
theorem factor_sub_curve_of_lt {bits : ℕ} {height : ℕ} (late : bits < height / period) :
    factor (2 ^ bits) period height = 0 ∧ 2 ^ bits * curve K period height < 1 := by
  constructor
  · have empty : step (2 ^ bits) period height = 0 := by
      rw [step, Nat.shiftRight_eq_div_pow]
      exact Nat.div_eq_of_lt (Nat.pow_lt_pow_right (by decide) late)
    rw [factor, empty, Nat.zero_sub]
  · have small : (1 / 2 : K) ^ (height / period) ≤ (1 / 2) ^ (bits + 1) :=
      pow_le_pow_of_le_one (by positivity) (by linarith) late
    calc 2 ^ bits * curve K period height
        ≤ 2 ^ bits * (1 / 2) ^ (bits + 1) :=
          mul_le_mul_of_nonneg_left ((curve_le K height).trans small) (by positivity)
      _ = 1 / 2 := by
          rw [pow_succ, ← mul_assoc, ← mul_pow, mul_one_div_cancel two_ne_zero, one_pow, one_mul]
      _ < 1 := by linarith

/-- The factor stays within one unit of the curve. -/
theorem abs_factor_sub_curve_lt (bits : ℕ) (positive : 0 < period) (height : ℕ) :
    |(factor (2 ^ bits) period height : K) - 2 ^ bits * curve K period height| < 1 := by
  rw [abs_lt]
  cases Nat.lt_or_ge bits (height / period) with
  | inl late =>
      obtain ⟨zero, small⟩ := factor_sub_curve_of_lt K late
      have nonneg := curve_nonneg K positive height
      have scaled : 0 ≤ 2 ^ bits * curve K period height := by positivity
      rw [zero, Nat.cast_zero]
      constructor <;> linarith
  | inr early =>
      obtain ⟨nonneg, small⟩ := factor_sub_curve_of_le K positive early
      constructor <;> linarith

end Curve

end Halving
