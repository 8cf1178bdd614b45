import Mathlib.Algebra.Order.Field.Rat
import Mathlib.Tactic.Linarith

/-!
# Floats as values

A double is a rational number, an infinity or a NaN; the two zeros are one
value here, which no comparison tells apart. Comparisons with a NaN
are false, and that decides what Python's two-argument `max` and `min`
return: the first argument, unless the second compares past it.
-/

namespace IdentityService

/-- A Python float, with exact arithmetic on the finite ones. -/
inductive PyFloat where
  | nan
  | negInf
  | finite (x : ℚ)
  | posInf
deriving DecidableEq

namespace PyFloat

/-- `x < y`. -/
def lt : PyFloat → PyFloat → Bool
  | .nan, _ => false
  | _, .nan => false
  | .negInf, .negInf => false
  | .negInf, _ => true
  | .finite x, .finite y => x < y
  | .finite _, .posInf => true
  | .finite _, .negInf => false
  | .posInf, _ => false

/-- `x <= y`. -/
def le : PyFloat → PyFloat → Bool
  | .nan, _ => false
  | _, .nan => false
  | .negInf, _ => true
  | .finite x, .finite y => x ≤ y
  | .finite _, .posInf => true
  | .finite _, .negInf => false
  | .posInf, .posInf => true
  | .posInf, _ => false

/-- `max(x, y)`. -/
def max (x y : PyFloat) : PyFloat := if x.lt y then y else x

/-- `min(x, y)`. -/
def min (x y : PyFloat) : PyFloat := if y.lt x then y else x

/-- `x or y`: a NaN counts as true. -/
def or (x y : PyFloat) : PyFloat := if x = .finite 0 then y else x

/-- Whatever `x` is, a value is clamped between two numbers. -/
theorem clamp_finite {low high : ℚ} (h : low ≤ high) (x : PyFloat) :
    ∃ y, (min (max (.finite low) x) (.finite high)) = .finite y ∧ low ≤ y ∧ y ≤ high := by
  have hkeep : ∃ y, min (.finite low) (.finite high) = .finite y ∧ low ≤ y ∧ y ≤ high := by
    refine ⟨low, ?_, le_refl low, h⟩
    simp [min, lt, not_lt.mpr h]
  cases x with
  | nan => exact hkeep
  | negInf => exact hkeep
  | posInf => exact ⟨high, rfl, h, le_refl high⟩
  | finite x =>
    by_cases hx : low < x
    · by_cases hhigh : high < x
      · exact ⟨high, by simp [max, min, lt, hx, hhigh], h, le_refl high⟩
      · exact ⟨x, by simp [max, min, lt, hx, hhigh], hx.le, not_lt.mp hhigh⟩
    · have hmax : max (.finite low) (.finite x) = .finite low := by simp [max, lt, hx]
      rw [hmax]
      exact hkeep

end PyFloat

/-- Rounding to the nearest double, away from the overflow threshold: as far
as sums of doubles are compared with doubles. -/
structure Rounding where
  round : ℚ → ℚ
  mono : ∀ x y, x ≤ y → round x ≤ round y
  twice : ∀ x, round x = x → round (2 * x) = 2 * x

/-- A rounded sum below a double is a sum below it. -/
theorem Rounding.lt_of_round_lt (R : Rounding) {x bound : ℚ} (hbound : R.round bound = bound)
    (h : R.round x < bound) : x < bound := by
  by_contra hx
  have hround := R.mono bound x (not_lt.mp hx)
  rw [hbound] at hround
  linarith

end IdentityService
