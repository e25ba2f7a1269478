import Mathlib.Analysis.SpecialFunctions.Arcosh
import Mathlib.Analysis.SpecialFunctions.Arsinh
import Mathlib.Analysis.SpecialFunctions.Artanh
import Mathlib.Analysis.SpecialFunctions.Log.Base
import Mathlib.Analysis.SpecialFunctions.Pow.Real
import Mathlib.Analysis.SpecialFunctions.Trigonometric.Arctan
import Mathlib.Analysis.SpecialFunctions.Trigonometric.Inverse
import Formulae.Expr.Derivative
import Formulae.Expr.Eval
import Formulae.Proofs.Number.Real

/-!
# Exact values of expressions

`Arithmetic.exact` is the arithmetic of the real numbers: a literal is the exact value of its
float, and the constants, operators and functions are the usual ones.  `Expr.real` evaluates in
it.

A power is Mathlib's power of real numbers, which at an integer exponent is the integer power of
any base.  Where a function has no value, such as a logarithm at zero, Mathlib's total function
supplies one.  The conditions for differentiating keep away from such arguments.
-/

namespace Formulae

open Number (toReal)

/-- The arithmetic of the real numbers. -/
noncomputable def Arithmetic.exact : Arithmetic ℝ where
  literal := toReal
  euler := Real.exp 1
  pi := Real.pi
  plus x y := x + y
  minus x y := x - y
  times x y := x * y
  divide x y := x / y
  power x y := x ^ y
  sqrt := Real.sqrt
  ln := Real.log
  log := Real.logb 10
  sin := Real.sin
  sinh := Real.sinh
  asin := Real.arcsin
  asinh := Real.arsinh
  cos := Real.cos
  cosh := Real.cosh
  acos := Real.arccos
  acosh := Real.arcosh
  tan := Real.tan
  tanh := Real.tanh
  atan := Real.arctan
  atanh := Real.artanh

namespace Arithmetic

/-! ## The functions that occur in derivatives -/

@[simp] theorem exact_sqrt : exact.apply .sqrt = Real.sqrt := rfl

@[simp] theorem exact_ln : exact.apply .ln = Real.log := rfl

@[simp] theorem exact_sin : exact.apply .sin = Real.sin := rfl

@[simp] theorem exact_sinh : exact.apply .sinh = Real.sinh := rfl

@[simp] theorem exact_cos : exact.apply .cos = Real.cos := rfl

@[simp] theorem exact_cosh : exact.apply .cosh = Real.cosh := rfl

@[simp] theorem exact_tanh : exact.apply .tanh = Real.tanh := rfl

/-! ## The functions without an operation of their own -/

theorem exact_cot (x : ℝ) : exact.apply .cot x = Real.cos x / Real.sin x := by
  change toReal 1 / Real.tan x = _
  rw [Number.toReal_one, Real.tan_eq_sin_div_cos, one_div_div]

theorem exact_coth (x : ℝ) : exact.apply .coth x = Real.cosh x / Real.sinh x := by
  change toReal 1 / Real.tanh x = _
  rw [Number.toReal_one, Real.tanh_eq_sinh_div_cosh, one_div_div]

theorem exact_acot (x : ℝ) : exact.apply .acot x = Real.pi / 2 - Real.arctan x := by
  change Real.pi / toReal 2 - Real.arctan x = _
  rw [Number.toReal_two]

end Arithmetic

namespace Expr

/-- The exact value of an expression. -/
noncomputable def real (e : Expr) (r : String → ℝ) : ℝ := e.eval .exact r

variable (r : String → ℝ)

@[simp] theorem real_literal (x : Float) : (literal x).real r = toReal x := rfl

@[simp] theorem real_var (name : String) : (var name).real r = r name := rfl

@[simp] theorem real_euler : (constant .euler).real r = Real.exp 1 := rfl

@[simp] theorem real_plus (a b : Expr) : (plus a b).real r = a.real r + b.real r := rfl

@[simp] theorem real_minus (a b : Expr) : (minus a b).real r = a.real r - b.real r := rfl

@[simp] theorem real_times (a b : Expr) : (times a b).real r = a.real r * b.real r := rfl

@[simp] theorem real_divide (a b : Expr) : (divide a b).real r = a.real r / b.real r := rfl

@[simp] theorem real_power (a b : Expr) : (power a b).real r = a.real r ^ b.real r := rfl

@[simp] theorem real_apply (f : Function) (u : Expr) :
    (apply f u).real r = Arithmetic.exact.apply f (u.real r) := rfl

@[simp] theorem real_zero : zero.real r = 0 := Number.toReal_zero

@[simp] theorem real_one : one.real r = 1 := Number.toReal_one

@[simp] theorem real_two : two.real r = 2 := Number.toReal_two

@[simp] theorem real_negativeOne : negativeOne.real r = -1 := by
  change toReal (-1) = -1
  rw [Number.toReal_neg, Number.toReal_one]

@[simp] theorem real_negate (e : Expr) : e.negate.real r = -e.real r := by
  cases e with
  | literal x => exact Number.toReal_neg x
  | var | constant | binary | apply => simp [negate]

end Expr

end Formulae
