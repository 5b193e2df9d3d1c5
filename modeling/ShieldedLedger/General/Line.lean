import Mathlib.Tactic.FieldSimp
import Mathlib.Tactic.Ring

/-!
# Secrets on a line

A line over a field hides its constant term as long as only one of its points
is known.  Two points of one line reveal it; two points of different lines
reveal it only where the offset computed below vanishes.
-/

namespace Line

variable {F : Type*} [Field F]

/-- The point of the line `a0 + a1 * x` over `x`. -/
def eval (a0 a1 x : F) : F := a0 + a1 * x

/-- Constant term of the line through two points. -/
def intercept (x0 y0 x1 y1 : F) : F := y0 - (y1 - y0) * (x1 - x0)⁻¹ * x0

/-- Points taken from two lines of one constant term miss it by an offset. -/
theorem intercept_eval (a0 slope slope' : F) {x0 x1 : F} (distinct : x0 ≠ x1) :
    intercept x0 (eval a0 slope x0) x1 (eval a0 slope' x1) =
      a0 + (slope - slope') * x0 * x1 * (x1 - x0)⁻¹ := by
  have nonzero : x1 - x0 ≠ 0 := sub_ne_zero.mpr distinct.symm
  simp only [intercept, eval]
  field_simp
  ring

/-- Two points of one line reveal its constant term. -/
theorem intercept_eval_self (a0 slope : F) {x0 x1 : F} (distinct : x0 ≠ x1) :
    intercept x0 (eval a0 slope x0) x1 (eval a0 slope x1) = a0 := by
  rw [intercept_eval a0 slope slope distinct]
  ring

end Line
