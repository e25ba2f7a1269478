import Mathlib
import Formulae.Proofs.Derivative.Exact

/-!
# Derivatives of the functions

`RegularAt` are the conditions on an argument.  Under them, `outerDerivative` has the value of the
derivative (`hasDerivAt_apply`).
-/

namespace Formulae

/-! ## Functions that are quotients or logarithms -/

theorem hasDerivAt_logb_ten {x : ℝ} (positive : 0 < x) :
    HasDerivAt (Real.logb 10) (1 / (x * Real.log 10)) x := by
  have quotient := (Real.hasDerivAt_log positive.ne').div_const (Real.log 10)
  exact quotient.congr_deriv (by rw [← one_div, div_div])

theorem hasDerivAt_tanh (x : ℝ) : HasDerivAt Real.tanh (1 - Real.tanh x ^ 2) x := by
  have nonzero : Real.cosh x ≠ 0 := (Real.cosh_pos x).ne'
  have quotient := (Real.hasDerivAt_sinh x).div (Real.hasDerivAt_cosh x) nonzero
  have same : Real.tanh = Real.sinh / Real.cosh := funext Real.tanh_eq_sinh_div_cosh
  rw [same]
  refine quotient.congr_deriv ?_
  rw [Pi.div_apply]
  field_simp

theorem hasDerivAt_cot {x : ℝ} (nonzero : Real.sin x ≠ 0) :
    HasDerivAt (Arithmetic.exact.apply .cot) (-1 / Real.sin x ^ 2) x := by
  have quotient := (Real.hasDerivAt_cos x).div (Real.hasDerivAt_sin x) nonzero
  have same : Arithmetic.exact.apply .cot = Real.cos / Real.sin := funext Arithmetic.exact_cot
  rw [same]
  refine quotient.congr_deriv ?_
  congr 1
  linear_combination -Real.sin_sq_add_cos_sq x

theorem hasDerivAt_coth {x : ℝ} (nonzero : Real.sinh x ≠ 0) :
    HasDerivAt (Arithmetic.exact.apply .coth) (1 - Arithmetic.exact.apply .coth x ^ 2) x := by
  have quotient := (Real.hasDerivAt_cosh x).div (Real.hasDerivAt_sinh x) nonzero
  have same : Arithmetic.exact.apply .coth = Real.cosh / Real.sinh :=
    funext Arithmetic.exact_coth
  rw [same]
  refine quotient.congr_deriv ?_
  rw [Pi.div_apply]
  field_simp

theorem hasDerivAt_acot (x : ℝ) :
    HasDerivAt (Arithmetic.exact.apply .acot) (-1 / (1 + x ^ 2)) x := by
  have difference := (Real.hasDerivAt_arctan x).const_sub (Real.pi / 2)
  have same : Arithmetic.exact.apply .acot = fun x => Real.pi / 2 - Real.arctan x :=
    funext Arithmetic.exact_acot
  rw [same]
  exact difference.congr_deriv (neg_div' _ _)

theorem hasDerivAt_artanh {x : ℝ} (above : -1 < x) (below : x < 1) :
    HasDerivAt Real.artanh (1 / (1 - x ^ 2)) x := by
  have numerator : 0 < 1 + x := by linarith
  have denominator : 0 < 1 - x := by linarith
  have factors : 1 - x ^ 2 = (1 + x) * (1 - x) := by ring
  have positive : 0 < (1 + x) / (1 - x) := div_pos numerator denominator
  have ratio : HasDerivAt (fun x => (1 + x) / (1 - x)) (2 / (1 - x) ^ 2) x :=
    (((hasDerivAt_id' x).const_add 1).div ((hasDerivAt_id' x).const_sub 1)
      denominator.ne').congr_deriv (by ring)
  have logarithm := (ratio.sqrt positive.ne').log (Real.sqrt_pos.2 positive).ne'
  refine logarithm.congr_deriv ?_
  rw [div_div, mul_assoc, Real.mul_self_sqrt positive.le, factors]
  field_simp

/-! ## All functions -/

namespace Function

/-- The arguments at which a function is differentiated. -/
def RegularAt : Function → ℝ → Prop
  | .sqrt, x | .ln, x | .log, x => 0 < x
  | .asin, x | .acos, x | .atanh, x => -1 < x ∧ x < 1
  | .acosh, x => 1 < x
  | .tan, x => Real.cos x ≠ 0
  | .cot, x => Real.sin x ≠ 0
  | .coth, x => Real.sinh x ≠ 0
  | .sin, _ | .sinh, _ | .asinh, _ | .cos, _ | .cosh, _ | .tanh, _ | .atan, _ | .acot, _ => True

/-- The table of outer derivatives is the table of derivatives. -/
theorem hasDerivAt_apply (f : Function) (u : Expr) (r : String → ℝ)
    (regular : f.RegularAt (u.real r)) :
    HasDerivAt (Arithmetic.exact.apply f) ((f.outerDerivative u).real r) (u.real r) := by
  set x := u.real r with value
  cases f with
  | sqrt =>
      exact (Real.hasDerivAt_sqrt (ne_of_gt regular)).congr_deriv
        (by simp [outerDerivative, ← value])
  | ln =>
      exact (Real.hasDerivAt_log (ne_of_gt regular)).congr_deriv
        (by simp [outerDerivative, ← value])
  | log =>
      exact (hasDerivAt_logb_ten regular).congr_deriv
        (by simp [outerDerivative, Number.toReal_ten, ← value])
  | sin =>
      exact (Real.hasDerivAt_sin x).congr_deriv (by simp [outerDerivative, ← value])
  | sinh =>
      exact (Real.hasDerivAt_sinh x).congr_deriv (by simp [outerDerivative, ← value])
  | asin =>
      obtain ⟨above, below⟩ := regular
      exact (Real.hasDerivAt_arcsin above.ne' below.ne).congr_deriv
        (by simp [outerDerivative, Real.sqrt_eq_rpow, ← value])
  | asinh =>
      exact (Real.hasDerivAt_arsinh x).congr_deriv (by simp [outerDerivative, add_comm, ← value])
  | cos =>
      exact (Real.hasDerivAt_cos x).congr_deriv (by simp [outerDerivative, ← value])
  | cosh =>
      exact (Real.hasDerivAt_cosh x).congr_deriv (by simp [outerDerivative, ← value])
  | acos =>
      obtain ⟨above, below⟩ := regular
      exact (Real.hasDerivAt_arccos above.ne' below.ne).congr_deriv
        (by simp [outerDerivative, Real.sqrt_eq_rpow, neg_div, ← value])
  | acosh =>
      exact (Real.hasDerivAt_arcosh regular).congr_deriv (by simp [outerDerivative, ← value])
  | tan =>
      exact (Real.hasDerivAt_tan regular).congr_deriv (by simp [outerDerivative, ← value])
  | tanh =>
      exact (hasDerivAt_tanh x).congr_deriv (by simp [outerDerivative, ← value])
  | atan =>
      exact (Real.hasDerivAt_arctan x).congr_deriv (by simp [outerDerivative, ← value])
  | atanh =>
      obtain ⟨above, below⟩ := regular
      exact (hasDerivAt_artanh above below).congr_deriv (by simp [outerDerivative, ← value])
  | cot =>
      exact (hasDerivAt_cot regular).congr_deriv (by simp [outerDerivative, ← value])
  | coth =>
      exact (hasDerivAt_coth regular).congr_deriv (by simp [outerDerivative, ← value])
  | acot =>
      exact (hasDerivAt_acot x).congr_deriv (by simp [outerDerivative, ← value])

end Function

end Formulae
