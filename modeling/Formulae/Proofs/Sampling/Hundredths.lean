import Formulae.Proofs.Number.Comparison
import Formulae.Proofs.Number.Operations
import Formulae.Sampling.Weighted

/-!
# Rounding to hundredths

A finite number is multiplied by one hundred, rounded to a whole number and divided by one hundred.
Only the product can overflow.  It does so for numbers above `roundingLimit`, which is a hundredth of
the greatest float, and those are rounded to infinity (`isFinite_hundredths_iff`).

A rounded value is never undefined (`isNaN_hundredths`) nor the negative zero
(`hundredths_ne_negativeZero`).
-/

namespace Formulae

open Number

section

variable {x y : Float}

theorem finite_hundred : code 100 < infinityCode := by decide

theorem toReal_hundred : toReal 100 = 100 :=
  toReal_eq_intCast (n := 100) finite_hundred (by decide)

/-! ## The product -/

/-- The greatest number whose product with one hundred is finite. -/
def roundingLimit : Float := 1.7976931348623157e306

theorem roundingLimit_spec :
    code roundingLimit < infinityCode ∧ code (roundingLimit * 100) < infinityCode ∧
      code (ofCode false (code roundingLimit + 1)) < infinityCode ∧
      code (ofCode false (code roundingLimit + 1) * 100) = infinityCode := by
  decide +kernel

/-- Products with one hundred are ordered as the magnitudes of the factors. -/
theorem code_mul_hundred_le (finite : code x < infinityCode) (finite' : code y < infinityCode)
    (le : code x ≤ code y) : code (x * 100) ≤ code (y * 100) := by
  refine (isNearest_mul finite finite_hundred).code_le_code (isNearest_mul finite' finite_hundred) ?_
  rw [abs_mul, abs_mul, abs_toReal finite, abs_toReal finite']
  have ordered : (steps (code x) : ℝ) ≤ steps (code y) :=
    Nat.cast_le.2 (steps_strictMono.monotone le)
  exact mul_le_mul_of_nonneg_right (div_le_div_of_nonneg_right ordered stepsPerUnit_pos.le)
    (abs_nonneg _)

theorem abs_le_iff_code (finite : code x < infinityCode) (finite' : code y < infinityCode)
    (positive : isNegative y = false) : x.abs ≤ y ↔ code x ≤ code y := by
  rw [abs_le_iff finite finite', abs_toReal finite, toReal_eq_steps finite' positive,
    div_le_div_iff_of_pos_right stepsPerUnit_pos, Nat.cast_le, steps_strictMono.le_iff_le]

theorem finite_mul_hundred_iff (finite : code y < infinityCode) :
    code (y * 100) < infinityCode ↔ y.abs ≤ roundingLimit := by
  obtain ⟨finiteLimit, finiteProduct, finiteNext, infinite⟩ := roundingLimit_spec
  rw [abs_le_iff_code finite finiteLimit (by decide +kernel)]
  refine ⟨fun product => ?_, fun within => ?_⟩
  · -- The next float has an infinite product, so no greater one has a finite product.
    by_contra above
    have next : code (ofCode false (code roundingLimit + 1)) ≤ code y := by
      rw [code_ofCode (Nat.succ_le_of_lt finiteLimit)]
      exact Nat.succ_le_of_lt (not_le.1 above)
    have more := code_mul_hundred_le finiteNext finite next
    rw [infinite] at more
    exact absurd product (not_lt.2 more)
  · exact (code_mul_hundred_le finite finiteLimit within).trans_lt finiteProduct

/-! ## The quotient -/

/-- The hundredth part of a finite number is finite. -/
theorem finite_div_hundred (finite : code x < infinityCode) : code (x / 100) < infinityCode := by
  have nearest := isNearest_div finite finite_hundred (by rw [toReal_hundred]; norm_num)
  refine nearest.finite_of_abs_le finite ?_
  rw [toReal_hundred, abs_div, abs_of_pos (by norm_num : (0 : ℝ) < 100)]
  exact div_le_self (abs_nonneg _) (by norm_num)

theorem finite_hundredths (product : code (y * 100) < infinityCode) :
    code (hundredths y) < infinityCode := by
  rw [hundredths, add_zero_eq]
  split
  · exact finite_zero
  · exact finite_div_hundred (finite_roundHalfAway product)

theorem rescale_infinite :
    (roundHalfAway (1 / 0) / 100 + 0 : Float) = 1 / 0 ∧
      (roundHalfAway (-1 / 0) / 100 + 0 : Float) = -1 / 0 := by
  decide

/-- An infinite product is rounded to infinity. -/
theorem code_hundredths (finite : code y < infinityCode)
    (overflow : ¬ code (y * 100) < infinityCode) : code (hundredths y) = infinityCode := by
  have defined := (isNearest_mul finite finite_hundred).code_le_infinityCode
  unfold hundredths
  rcases eq_of_not_finite overflow with infinite | infinite | undefined
  · rw [infinite, rescale_infinite.1]
    decide
  · rw [infinite, rescale_infinite.2]
    decide
  · rw [undefined] at defined
    exact absurd defined (by decide)

/-! ## Rounded values -/

theorem isNaN_hundredths (finite : y.isFinite = true) : (hundredths y).isNaN = false := by
  rw [isFinite_iff] at finite
  rw [isNaN_eq, decide_eq_false_iff_not, not_lt]
  by_cases product : code (y * 100) < infinityCode
  · exact (finite_hundredths product).le
  · exact (code_hundredths finite product).le

/-- Only numbers up to the limit are rounded to finite values. -/
theorem isFinite_hundredths_iff (finite : y.isFinite = true) :
    (hundredths y).isFinite = true ↔ y.abs ≤ roundingLimit := by
  rw [isFinite_iff] at finite
  rw [isFinite_iff, ← finite_mul_hundred_iff finite]
  refine ⟨fun rounded => ?_, finite_hundredths⟩
  by_contra product
  rw [code_hundredths finite product] at rounded
  exact absurd rounded (lt_irrefl _)

/-- Adding zero at the end takes the sign of a zero away. -/
theorem hundredths_ne_negativeZero (y : Float) : hundredths y ≠ -0 := by
  rw [hundredths, add_zero_eq]
  split
  · decide
  next nonzero =>
    intro zero
    rw [zero] at nonzero
    exact nonzero (by decide)

end

end Formulae
