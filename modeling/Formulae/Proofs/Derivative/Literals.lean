import Formulae.Proofs.Derivative.Structural

/-!
# Derivatives that are literals

A derivative is a literal only when it has to be.  It is `0` exactly when the variable does not occur
(`derivative_literal_cases`), and the other literals are `1` and `-1`: the derivative of the
variable itself, and what sums, differences and the exponent `1` hand on of it.

`IsSteep` collects what the derivative by an occurring variable can be.  Every rule that hands on the
derivative of an operand hands on one of an operand with the variable (`Operator.isSteep_derivativeRule`),
and the only rule that changes it is negation, which exchanges `1` and `-1` (`IsSteep.negate`).
-/

namespace Formulae

namespace Expr

/-- The literal `1`, the literal `-1`, or no literal. -/
inductive IsSteep : Expr → Prop where
  | one : IsSteep .one
  | negativeOne : IsSteep .negativeOne
  | other {e : Expr} : e.isNumber = false → IsSteep e

variable {v : String} {e : Expr}

theorem IsSteep.ne_zero (steep : e.IsSteep) : e ≠ zero := by
  cases steep with
  | one | negativeOne => decide
  | other noNumber =>
    rintro rfl
    cases noNumber

theorem IsSteep.negate (steep : e.IsSteep) : e.negate.IsSteep := by
  cases steep with
  | one => exact .negativeOne
  | negativeOne =>
    have twice : Expr.negativeOne.negate = Expr.one := by decide
    rw [twice]
    exact .one
  | other noNumber =>
    cases e with
    | literal => cases noNumber
    | var | constant | binary | apply => exact .other rfl

end Expr

/-- A rule hands on the derivative of an operand with the variable, or gives an operation. -/
theorem Operator.isSteep_derivativeRule (op : Operator) {leftMentions rightMentions : Bool}
    (occurs : (leftMentions || rightMentions) = true) {a b a' b' : Expr}
    (left : leftMentions = true → a'.IsSteep) (right : rightMentions = true → b'.IsSteep) :
    (op.derivativeRule leftMentions rightMentions a b a' b').IsSteep := by
  cases leftMentions with
  | false =>
    cases rightMentions with
    | false => cases occurs
    | true =>
      cases op with
      | plus => exact right rfl
      | minus => exact (right rfl).negate
      | times | divide => exact .other rfl
      | power =>
        unfold derivativeRule
        dsimp only
        split
        next => exact .other rfl
        next => exact .other rfl
  | true =>
    cases rightMentions with
    | false =>
      cases op with
      | plus | minus => exact left rfl
      | times | divide => exact .other rfl
      | power =>
        unfold derivativeRule
        dsimp only
        split
        next => exact left rfl
        next => exact .other rfl
    | true =>
      cases op with
      | plus | minus | times | divide | power => exact .other rfl

namespace Expr

variable {v : String} {e : Expr}

theorem isSteep_derivative (occurs : e.mentions v = true) : (e.derivative v).IsSteep := by
  induction e with
  | literal | constant => cases occurs
  | var name =>
    obtain rfl : name = v := eq_of_beq occurs
    rw [derivative_var]
    exact .one
  | binary op a b left right =>
    rw [derivative_binary]
    exact op.isSteep_derivativeRule occurs left right
  | apply f u argument =>
    have inside : u.mentions v = true := occurs
    rw [derivative_apply f inside]
    exact .other rfl

/-- The derivative is the literal `0` exactly when the variable does not occur, and otherwise it is the
literal `1`, the literal `-1` or no literal. -/
theorem derivative_literal_cases (v : String) (e : Expr) :
    (e.derivative v = zero ↔ e.mentions v = false) ∧
      (e.mentions v = true → e.derivative v = one ∨ e.derivative v = negativeOne ∨
        ∀ x, e.derivative v ≠ literal x) := by
  refine ⟨⟨fun isZero => ?_, derivative_of_free⟩, fun occurs => ?_⟩
  · cases occurs : e.mentions v with
    | false => rfl
    | true => exact absurd isZero (isSteep_derivative occurs).ne_zero
  · have steep := isSteep_derivative occurs
    generalize e.derivative v = d at steep ⊢
    cases steep with
    | one => exact .inl rfl
    | negativeOne => exact .inr (.inl rfl)
    | other noNumber =>
      refine .inr (.inr ?_)
      rintro x rfl
      cases noNumber

/-- A difference of differences has the derivative `1`: the inner one is `-1`, and is negated at
once. -/
theorem derivative_literal_cases_difference :
    let e := minus (constant .pi) (minus (var "k") (power (var "x") one))
    e.mentions "x" = true ∧ e.derivative "x" ≠ zero ∧
      (e.derivative "x" = one ∨ e.derivative "x" = negativeOne ∨
        ∀ x, e.derivative "x" ≠ literal x) := by
  intro e
  obtain ⟨zero, literal⟩ := derivative_literal_cases "x" e
  have occurs : e.mentions "x" = true := by decide
  refine ⟨occurs, fun isZero => ?_, literal occurs⟩
  rw [zero.1 isZero] at occurs
  cases occurs

end Expr

end Formulae
