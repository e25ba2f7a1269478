import Formulae.Proofs.Derivative.Structural
import Formulae.Proofs.Reduction.Value

/-!
# Partial derivatives

A derivative by one variable treats the others as constants.  `replace w c` puts the literal `c` for
the variable `w`.  The derivative by another variable then has the value that it had before at
assignments with `c` for `w` (`eval_derivative_replace`).

It need not be the same tree with `c` for `w`, because some rules ask for a literal: an exponent `1`
makes a power its base, a literal exponent is lowered at once, and a literal is negated at once.  So
the trees are compared by their values.  All rules that can differ have one value, which the operands
determine (`eval_lowered`, `eval_powerRule`, and `eval_negate` for the sign), and the value of a rule
is the same for operands of the same values (`Operator.eval_derivativeRule`).
-/

namespace Formulae

open Formulae.Number

namespace Expr

/-- The expression with a literal in place of a variable. -/
def replace (w : String) (c : Float) : Expr → Expr
  | literal x => literal x
  | var name => if name = w then literal c else var name
  | constant k => constant k
  | binary op a b => binary op (a.replace w c) (b.replace w c)
  | apply f u => apply f (u.replace w c)

variable {A : Arithmetic Float} {valueOf : String → Float} {v w : String} {c : Float}
  {a b e u : Expr}

theorem mentions_replace (different : v ≠ w) (e : Expr) :
    (e.replace w c).mentions v = e.mentions v := by
  induction e with
  | literal | constant => rfl
  | var name =>
    by_cases same : name = w
    · simp [replace, same, mentions, different.symm]
    · simp [replace, same]
  | binary op a b left right => simp [replace, mentions, left, right]
  | apply f u argument => simp [replace, mentions, argument]

theorem eval_replace (rounded : A.IsRounded) (bound : valueOf w = c) (e : Expr) :
    (e.replace w c).eval A valueOf = e.eval A valueOf := by
  induction e with
  | literal | constant => rfl
  | var name =>
    by_cases same : name = w
    · simp [replace, same, eval, bound, rounded.literal]
    · simp [replace, same]
  | binary op a b left right => simp [replace, eval, left, right]
  | apply f u argument => simp [replace, eval, argument]

/-- Literals do not take the place of constants. -/
theorem replace_eq_constant_iff {k : Constant} (e : Expr) :
    e.replace w c = constant k ↔ e = constant k := by
  cases e with
  | var name => by_cases same : name = w <;> simp [replace, same]
  | literal | constant | binary | apply => simp [replace]

/-! ## The rules that ask for a literal -/

theorem eval_lowered (rounded : A.IsRounded) (b : Expr) :
    b.lowered.eval A valueOf = b.eval A valueOf - 1 := by
  cases b with
  | literal | var | constant | binary | apply =>
    simp [lowered, one, eval, Arithmetic.combine, rounded.literal, rounded.minus]

/-- An exponent `1` makes no difference to the value. -/
theorem eval_powerRule (rounded : A.IsRounded) (powers : ∀ x, A.power x 0 = 1) (a b a' : Expr) :
    (if b.isLiteral 1 then a' else times (times b (power a b.lowered)) a').eval A valueOf =
      b.eval A valueOf * A.power (a.eval A valueOf) (b.eval A valueOf - 1) *
        a'.eval A valueOf := by
  split
  next isOne =>
    obtain ⟨x, rfl, same⟩ := isLiteral_iff.1 isOne
    obtain rfl := eq_one_of_beq same
    have zero : (1 : Float) - 1 = 0 := by decide
    rw [eval, rounded.literal, zero, powers, Number.mul_one, Number.mul_comm, Number.mul_one]
  next => simp only [eval, Arithmetic.combine, rounded.times, eval_lowered rounded]

end Expr

/-! ## Values of the rules -/

section

variable {A : Arithmetic Float} {valueOf : String → Float}

theorem Function.eval_outerDerivative (f : Function) {u s : Expr}
    (same : u.eval A valueOf = s.eval A valueOf) :
    (f.outerDerivative u).eval A valueOf = (f.outerDerivative s).eval A valueOf := by
  cases f <;> simp [outerDerivative, Expr.negate, Expr.eval, same]

/-- A rule has the same value for operands and derivatives of the same values. -/
theorem Operator.eval_derivativeRule (rounded : A.IsRounded) (powers : ∀ x, A.power x 0 = 1)
    (op : Operator) (leftMentions rightMentions : Bool) {a b a' b' r s r' s' : Expr}
    (left : a.eval A valueOf = r.eval A valueOf) (right : b.eval A valueOf = s.eval A valueOf)
    (left' : a'.eval A valueOf = r'.eval A valueOf) (right' : b'.eval A valueOf = s'.eval A valueOf)
    (euler : a = .constant .euler ↔ r = .constant .euler) :
    (op.derivativeRule leftMentions rightMentions a b a' b').eval A valueOf =
      (op.derivativeRule leftMentions rightMentions r s r' s').eval A valueOf := by
  cases leftMentions with
  | false =>
    cases rightMentions with
    | false => rfl
    | true =>
      cases op with
      | plus => exact right'
      | minus => simp only [derivativeRule, Expr.eval_negate rounded, right']
      | times | divide => simp [derivativeRule, Expr.eval, left, right, right']
      | power =>
        by_cases base : a = .constant .euler
        · simp [derivativeRule, base, euler.1 base, Expr.eval, right, right']
        · simp [derivativeRule, base, mt euler.2 base, Expr.eval, left, right, right']
  | true =>
    cases rightMentions with
    | false =>
      cases op with
      | plus | minus => exact left'
      | times | divide => simp [derivativeRule, Expr.eval, right, left']
      | power =>
        simp only [derivativeRule, Expr.eval_powerRule rounded powers, left, right, left']
    | true =>
      cases op with
      | plus | minus | times | divide | power =>
        simp [derivativeRule, Expr.eval, left, right, left', right']

end

namespace Expr

variable {A : Arithmetic Float} {v w : String} {c : Float}

/-! ## The result -/

/-- A derivative treats another variable as the constant that it stands for. -/
theorem eval_derivative_replace (rounded : A.IsRounded) (powers : ∀ x, A.power x 0 = 1)
    (different : v ≠ w) (b : Bindings) (bound : b.value w = c) (e : Expr) :
    (e.derivative v).eval A b.value = ((e.replace w c).derivative v).eval A b.value := by
  induction e with
  | literal | constant => rfl
  | var name =>
    by_cases same : name = w
    · have free : (var name).mentions v = false := by simp [mentions, same, different.symm]
      rw [derivative_of_free free, derivative_of_free ((mentions_replace different _).trans free)]
    · rw [replace, if_neg same]
  | binary op l r left right =>
    rw [replace, derivative_binary, derivative_binary, mentions_replace different,
      mentions_replace different]
    exact op.eval_derivativeRule rounded powers _ _ (eval_replace rounded bound l).symm
      (eval_replace rounded bound r).symm left right (replace_eq_constant_iff l).symm
  | apply f u argument =>
    cases occurs : u.mentions v with
    | true =>
      have occurs' : (u.replace w c).mentions v = true := (mentions_replace different u).trans occurs
      have outer := f.eval_outerDerivative (eval_replace rounded bound u)
      rw [replace, derivative_apply f occurs, derivative_apply f occurs']
      simp only [eval, outer, argument]
    | false =>
      have free : (apply f u).mentions v = false := occurs
      rw [derivative_of_free free, derivative_of_free ((mentions_replace different _).trans free)]

/-- An exponent that turns out to be `1`, in a difference: the trees differ, the values do not. -/
theorem eval_derivative_replace_pi_minus_power :
    let A := Arithmetic.known
    let e := minus (constant .pi) (power (var "x") (var "k"))
    let b := (Bindings.empty.insert "x" 2).insert "k" 1
    A.IsRounded ∧ (∀ x, A.power x 0 = 1) ∧ "x" ≠ "k" ∧ b.value "k" = 1 ∧
      e.derivative "x" ≠ (e.replace "k" 1).derivative "x" ∧
      (e.derivative "x").eval A b.value = ((e.replace "k" 1).derivative "x").eval A b.value := by
  intro A e b
  have rounded := Arithmetic.isRounded_known
  have powers := Arithmetic.hasUnitPowers_known.power_zero
  have different : "x" ≠ "k" := by decide
  have bound : b.value "k" = 1 := by decide
  have trees : e.derivative "x" ≠ (e.replace "k" 1).derivative "x" := by
    rw [derivative_eq_structuralDerivative, derivative_eq_structuralDerivative]
    decide
  exact ⟨rounded, powers, different, bound, trees,
    eval_derivative_replace rounded powers different b bound e⟩

end Expr

end Formulae
