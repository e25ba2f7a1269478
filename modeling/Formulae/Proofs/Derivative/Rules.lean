import Formulae.Proofs.Derivative.Regular
import Formulae.Proofs.Number.Operations

/-!
# The rules of differentiation

`IsDerivative v r e d` says that `d` has the value of the derivative of `e` by `v` at `r`.  There
is one rule for each kind of expression.  The rules for an operand without the variable are
instances of these, because such an operand has the derivative zero.

The result is `hasDerivAt_derivative`: at a regular assignment, `derivative` is the derivative.
Its induction follows the recursion of `derivative`, which leaves the expression in two places and
differentiates another one instead.  `of_slice` goes back from there.
-/

namespace Formulae.Expr

open Number (toReal)

variable {v : String} {r : String → ℝ} {a a' b b' d d' e e' u u' : Expr}

/-! ## Literal exponents -/

theorem real_of_isLiteral_one (literal : b.isLiteral 1 = true) : b.real r = 1 := by
  cases b with
  | literal n => exact Number.toReal_of_beq_one literal
  | var | constant | binary | apply => cases literal

/-- Lowering a literal exponent is exact where the result is a float. -/
theorem real_lowered (finite : b.HasFiniteLiterals) (lowers : b.LowersExactly) :
    b.lowered.real r = b.real r - 1 := by
  cases b with
  | literal n =>
      obtain ⟨z, representable, difference⟩ := lowers n rfl
      rw [HasFiniteLiterals, Number.isFinite_iff] at finite
      rw [Number.isFinite_iff] at representable
      rw [← Number.toReal_one] at difference
      have finiteOne : Number.code 1 < Number.infinityCode :=
        (Number.units_of_listed 1 (by decide)).1
      have exact := Number.toReal_sub finite finiteOne representable difference
      rw [Number.toReal_one] at exact
      exact exact
  | var | constant | binary | apply => simp [lowered]

/-! ## Derivatives -/

/-- The value of the second expression is the derivative of the first. -/
def IsDerivative (v : String) (r : String → ℝ) (e d : Expr) : Prop :=
  HasDerivAt (e.slice v r) (d.real r) (r v)

namespace IsDerivative

/-- Only the value of a derivative matters. -/
theorem congr_value (h : IsDerivative v r e d) (same : d.real r = d'.real r) :
    IsDerivative v r e d' :=
  HasDerivAt.congr_deriv h same

/-- Only the values near the assignment matter. -/
theorem of_slice (h : IsDerivative v r e' d) (same : e.slice v r =ᶠ[nhds (r v)] e'.slice v r) :
    IsDerivative v r e d :=
  HasDerivAt.congr_of_eventuallyEq h same

/-! ## Leaves and applications -/

theorem of_free (free : e.mentions v = false) : IsDerivative v r e zero := by
  rw [IsDerivative, slice_of_free free, real_zero]
  exact hasDerivAt_const _ _

theorem self : IsDerivative v r (var v) one := by
  rw [IsDerivative, slice_var, real_one]
  exact hasDerivAt_id _

/-- The chain rule. -/
protected theorem apply {f : Function} (inner : IsDerivative v r u u')
    (regular : f.RegularAt (u.real r)) :
    IsDerivative v r (apply f u) (times (f.outerDerivative u) u') := by
  have outer := f.hasDerivAt_apply u r regular
  rw [← u.slice_self (v := v)] at outer
  exact HasDerivAt.comp (r v) outer inner

/-! ## Sums and products -/

protected theorem plus (left : IsDerivative v r a a') (right : IsDerivative v r b b') :
    IsDerivative v r (plus a b) (plus a' b') := by
  rw [IsDerivative, slice_plus]
  exact HasDerivAt.add left right

protected theorem minus (left : IsDerivative v r a a') (right : IsDerivative v r b b') :
    IsDerivative v r (minus a b) (minus a' b') := by
  rw [IsDerivative, slice_minus]
  exact HasDerivAt.sub left right

protected theorem times (left : IsDerivative v r a a') (right : IsDerivative v r b b') :
    IsDerivative v r (times a b) (plus (times a' b) (times a b')) := by
  have product := HasDerivAt.mul left right
  rw [slice_self, slice_self] at product
  rw [IsDerivative, slice_times]
  exact product

protected theorem divide (left : IsDerivative v r a a') (right : IsDerivative v r b b')
    (nonzero : b.real r ≠ 0) :
    IsDerivative v r (divide a b)
      (divide (minus (times a' b) (times a b')) (power b two)) := by
  rw [← b.slice_self (v := v)] at nonzero
  have quotient := HasDerivAt.div left right nonzero
  rw [slice_self, slice_self] at quotient
  rw [IsDerivative, slice_divide]
  refine quotient.congr_deriv ?_
  simp

/-- A quotient by the variable, from the power that replaces it. -/
theorem divide_of_power (power : IsDerivative v r (.power b negativeOne) d)
    (free : a.mentions v = false) : IsDerivative v r (.divide a b) (.times a d) := by
  have product := (of_free free).times power
  have same : (Expr.divide a b).slice v r = (Expr.times a (.power b negativeOne)).slice v r := by
    funext s
    simp [slice, Real.rpow_neg_one, div_eq_mul_inv]
  exact (product.of_slice (.of_eq same)).congr_value (by simp)

/-! ## Powers -/

theorem power_one (base : IsDerivative v r a a') (one : b.isLiteral 1 = true) :
    IsDerivative v r (power a b) a' := by
  have same : (Expr.power a b).slice v r = a.slice v r := by
    funext s
    simp [slice, real_of_isLiteral_one one]
  exact base.of_slice (.of_eq same)

/-- A power with a constant exponent. -/
theorem power_of_free (base : IsDerivative v r a a') (free : b.mentions v = false)
    (regular : RegularRoot r .power a b) (lowers : b.lowered.real r = b.real r - 1) :
    IsDerivative v r (power a b) (times (times b (power a b.lowered)) a') := by
  have fits := base_ne_zero_or_one_le regular
  rw [← a.slice_self (v := v)] at fits
  have power := HasDerivAt.rpow_const base fits
  rw [slice_self] at power
  rw [IsDerivative, slice_power, slice_of_free free]
  refine power.congr_deriv ?_
  rw [real_times, real_times, real_power, lowers]
  ring

/-- A power with a constant base. -/
theorem of_free_power (exponent : IsDerivative v r b b') (free : a.mentions v = false)
    (positive : 0 < a.real r) :
    IsDerivative v r (power a b) (times (times (power a b) (.apply .ln a)) b') := by
  have power := HasDerivAt.const_rpow positive exponent
  rw [slice_self] at power
  rw [IsDerivative, slice_power, slice_of_free free]
  refine power.congr_deriv ?_
  rw [real_times, real_times, real_power, real_apply, Arithmetic.exact_ln]
  ring

/-- A power of `e`. -/
theorem euler_power (exponent : IsDerivative v r b b') :
    IsDerivative v r (power (constant .euler) b) (times (power (constant .euler) b) b') := by
  have positive : 0 < (constant .euler).real r := Real.exp_pos 1
  refine (exponent.of_free_power rfl positive).congr_value ?_
  simp

/-- A power with the variable on both sides, from the power of `e` that replaces it. -/
theorem power_of_exponential
    (exponential : IsDerivative v r (power (constant .euler) (times b (.apply .ln a))) d)
    (continuous : ContinuousAt (a.slice v r) (r v)) (positive : 0 < a.real r) :
    IsDerivative v r (power a b) d := by
  refine exponential.of_slice ?_
  rw [← a.slice_self (v := v)] at positive
  filter_upwards [continuous.eventually_const_lt positive] with s positive
  change a.slice v r s ^ b.slice v r s =
    Real.exp 1 ^ (b.slice v r s * Real.log (a.slice v r s))
  rw [Real.exp_one_rpow, Real.rpow_def_of_pos positive, mul_comm]

end IsDerivative

/-! ## The expressions put in place of others -/

theorem regularRoot_power_negativeOne (nonzero : b.real r ≠ 0) :
    RegularRoot r .power b negativeOne := by
  have value : toReal (-1) = -1 := real_negativeOne r
  have finite : (-2 : Float).isFinite = true := (Number.isFinite_of_listed (n := 2) (by decide)).2
  refine ⟨.inr ⟨-1, rfl, ⟨-1, ?_⟩, .inl nonzero⟩, fun n same => ⟨-2, finite, ?_⟩⟩
  · rw [value, Int.cast_neg, Int.cast_one]
  · obtain rfl : -1 = n := Expr.literal.inj same
    rw [value, Number.toReal_neg, Number.toReal_two]
    norm_num

/-- What stands for a quotient by the variable is regular. -/
theorem regular_power_negativeOne (regular : b.Regular v r) (nonzero : b.real r ≠ 0) :
    (power b negativeOne).Regular v r :=
  ⟨regular, trivial, fun _ => regularRoot_power_negativeOne nonzero⟩

/-- What stands for a power with the variable on both sides is regular. -/
theorem regular_exponential (regularA : a.Regular v r) (regularB : b.Regular v r)
    (positive : 0 < a.real r) :
    (power (constant .euler) (times b (apply .ln a))).Regular v r := by
  refine ⟨trivial, ⟨regularB, ⟨regularA, fun _ => positive⟩, fun _ => trivial⟩, fun _ => ?_⟩
  refine ⟨.inl (Real.exp_pos 1), ?_⟩
  intro n same
  cases same

/-! ## The result -/

/-- At a regular assignment, the value of `derivative` is the derivative of the value. -/
theorem hasDerivAt_derivative (finite : e.HasFiniteLiterals) (regular : e.Regular v r) :
    HasDerivAt (fun s => e.real (Function.update r v s)) ((e.derivative v).real r) (r v) := by
  change IsDerivative v r e (e.derivative v)
  fun_induction derivative v e with
  | case1 _ occurs | case2 _ occurs => cases occurs
  | case3 name occurs =>
      obtain rfl : name = v := by simpa [mentions] using occurs
      exact .self
  | case4 f u occurs ih =>
      obtain ⟨inner, outer⟩ := regular
      exact (ih finite inner).apply (outer occurs)
  | case5 a b _ free ih =>
      have sum := (ih finite.1 regular.1).plus (.of_free free)
      exact sum.congr_value (by simp)
  | case6 a b _ free _ ih =>
      have sum := (IsDerivative.of_free free).plus (ih finite.2 regular.2.1)
      exact sum.congr_value (by simp)
  | case7 a b _ _ _ ihA ihB => exact (ihA finite.1 regular.1).plus (ihB finite.2 regular.2.1)
  | case8 a b _ free ih =>
      have difference := (ih finite.1 regular.1).minus (.of_free free)
      exact difference.congr_value (by simp)
  | case9 a b _ free _ ih =>
      have difference := (IsDerivative.of_free free).minus (ih finite.2 regular.2.1)
      exact difference.congr_value (by simp)
  | case10 a b _ _ _ ihA ihB => exact (ihA finite.1 regular.1).minus (ihB finite.2 regular.2.1)
  | case11 a b _ free ih =>
      have product := (ih finite.1 regular.1).times (.of_free free)
      exact product.congr_value (by simp [mul_comm])
  | case12 a b _ free _ ih =>
      have product := (IsDerivative.of_free free).times (ih finite.2 regular.2.1)
      exact product.congr_value (by simp)
  | case13 a b _ _ _ ihA ihB => exact (ihA finite.1 regular.1).times (ihB finite.2 regular.2.1)
  | case14 a b occurs free ih =>
      have nonzero : b.real r ≠ 0 := regular.2.2 occurs
      have quotient := (ih finite.1 regular.1).divide (.of_free free) nonzero
      refine quotient.congr_value ?_
      simp only [real_divide, real_minus, real_times, real_power, real_zero, real_two, mul_zero,
        sub_zero, Real.rpow_two]
      field_simp
  | case15 a b occurs free _ ih =>
      have nonzero : b.real r ≠ 0 := regular.2.2 occurs
      have finitePower : (power b negativeOne).HasFiniteLiterals :=
        ⟨finite.2, (Number.isFinite_of_listed (n := 1) (by decide)).2⟩
      exact (ih finitePower (regular_power_negativeOne regular.2.1 nonzero)).divide_of_power free
  | case16 a b occurs _ _ ihA ihB =>
      exact (ihA finite.1 regular.1).divide (ihB finite.2 regular.2.1) (regular.2.2 occurs)
  | case17 a b _ _ one ih => exact (ih finite.1 regular.1).power_one one
  | case18 a b occurs free _ ih =>
      have root : RegularRoot r .power a b := regular.2.2 occurs
      exact (ih finite.1 regular.1).power_of_free free root (real_lowered finite.2 root.2)
  | case19 b _ _ _ ih => exact (ih finite.2 regular.2.1).euler_power
  | case20 a b occurs free occursB _ ih =>
      exact (ih finite.2 regular.2.1).of_free_power free (base_pos occursB (regular.2.2 occurs))
  | case21 a b occurs _ occursB ih =>
      obtain ⟨regularA, regularB, root⟩ := regular
      have positive := base_pos occursB (root occurs)
      have exponential := ih ⟨trivial, finite.2, finite.1⟩
        (regular_exponential regularA regularB positive)
      exact exponential.power_of_exponential (continuousAt_slice regularA) positive
  | case22 e free => exact .of_free (Bool.eq_false_of_not_eq_true free)

/-- A power with base zero, in a quotient. -/
theorem hasDerivAt_derivative_square_over_cos :
    let e := divide (power (var "x") two) (apply .cos (var "x"))
    e.HasFiniteLiterals ∧ e.Regular "x" 0 ∧
      HasDerivAt (fun s => e.real (Function.update 0 "x" s)) ((e.derivative "x").real 0) 0 := by
  intro e
  have finite : e.HasFiniteLiterals :=
    ⟨⟨trivial, (Number.isFinite_of_listed (n := 2) (by decide)).1⟩, trivial⟩
  have exponent : IsIntegerExponent ((var "x").real 0) two := by
    refine ⟨2, rfl, ⟨2, ?_⟩, .inr ?_⟩
    · rw [Number.toReal_two, Int.cast_ofNat]
    · rw [Number.toReal_two]
      norm_num
  have lowers : two.LowersExactly := by
    intro n same
    obtain rfl : 2 = n := Expr.literal.inj same
    refine ⟨1, (Number.isFinite_of_listed (n := 1) (by decide)).1, ?_⟩
    rw [Number.toReal_one, Number.toReal_two]
    norm_num
  have divisor : (apply .cos (var "x")).real 0 ≠ 0 := by simp
  have regular : e.Regular "x" 0 :=
    ⟨⟨trivial, trivial, fun _ => ⟨.inr exponent, lowers⟩⟩, ⟨trivial, fun _ => trivial⟩,
      fun _ => divisor⟩
  exact ⟨finite, regular, hasDerivAt_derivative finite regular⟩

end Formulae.Expr
