import Formulae.Expr.Derivative
import Formulae.Proofs.Canonical.Reparse

/-!
# The variables of a derivative

A derivative is put together from parts of the expression, constants and literals.  So it uses no
variable that the expression does not use (`occurrences_derivative`).

`UsesOnly names e` fixes the names first.  The two rules that differentiate an expression that is
no part of the given one need no argument of their own in this form, because what they
differentiate uses the same names.
-/

namespace Formulae

namespace Expr

/-- Every variable of the expression is one of the names. -/
def UsesOnly (names : List String) (e : Expr) : Prop := e.occurrences ⊆ names

variable {names : List String} {v : String} {e l r u : Expr}

@[simp] theorem usesOnly_literal (x : Float) : (literal x).UsesOnly names := List.nil_subset _

@[simp] theorem usesOnly_constant (c : Constant) : (constant c).UsesOnly names := List.nil_subset _

@[simp] theorem usesOnly_binary {op : Operator} :
    (binary op l r).UsesOnly names ↔ l.UsesOnly names ∧ r.UsesOnly names :=
  List.append_subset

@[simp] theorem usesOnly_apply {f : Function} : (apply f u).UsesOnly names ↔ u.UsesOnly names :=
  Iff.rfl

@[simp] theorem usesOnly_zero : zero.UsesOnly names := usesOnly_literal 0

@[simp] theorem usesOnly_one : one.UsesOnly names := usesOnly_literal 1

@[simp] theorem usesOnly_two : two.UsesOnly names := usesOnly_literal 2

@[simp] theorem usesOnly_negativeOne : negativeOne.UsesOnly names := usesOnly_literal (-1)

@[simp] theorem usesOnly_negate : e.negate.UsesOnly names ↔ e.UsesOnly names := by
  rw [UsesOnly, occurrences_negate, UsesOnly]

theorem UsesOnly.lowered (inside : e.UsesOnly names) : e.lowered.UsesOnly names := by
  cases e with
  | literal => exact usesOnly_literal _
  | var | constant | binary | apply => exact usesOnly_binary.2 ⟨inside, usesOnly_one⟩

end Expr

theorem Function.usesOnly_outerDerivative (f : Function) {names : List String} {u : Expr}
    (inside : u.UsesOnly names) : (f.outerDerivative u).UsesOnly names := by
  cases f <;> simp [outerDerivative, inside]

namespace Expr

variable {names : List String} {v : String} {e : Expr}

/-- What a derivative uses is used by the expression. -/
theorem usesOnly_derivative (inside : e.UsesOnly names) : (e.derivative v).UsesOnly names := by
  fun_induction derivative v e with
  | case1 | case2 | case22 => exact usesOnly_zero
  | case3 => exact usesOnly_one
  | case4 f u _ ih => exact usesOnly_binary.2 ⟨f.usesOnly_outerDerivative inside, ih inside⟩
  | case5 a b _ _ ih | case8 a b _ _ ih | case17 a b _ _ _ ih =>
      exact ih (usesOnly_binary.1 inside).1
  | case6 a b _ _ _ ih => exact ih (usesOnly_binary.1 inside).2
  | case9 a b _ _ _ ih => exact usesOnly_negate.2 (ih (usesOnly_binary.1 inside).2)
  | case7 a b _ _ _ ihA ihB | case10 a b _ _ _ ihA ihB | case13 a b _ _ _ ihA ihB
  | case16 a b _ _ _ ihA ihB =>
      obtain ⟨insideA, insideB⟩ := usesOnly_binary.1 inside
      simp [insideA, insideB, ihA insideA, ihB insideB]
  | case11 a b _ _ ih | case14 a b _ _ ih =>
      obtain ⟨insideA, insideB⟩ := usesOnly_binary.1 inside
      simp [insideB, ih insideA]
  | case12 a b _ _ _ ih =>
      obtain ⟨insideA, insideB⟩ := usesOnly_binary.1 inside
      simp [insideA, ih insideB]
  | case15 a b _ _ _ ih =>
      obtain ⟨insideA, insideB⟩ := usesOnly_binary.1 inside
      have quotient := ih (usesOnly_binary.2 ⟨insideB, usesOnly_negativeOne⟩)
      simp [insideA, quotient]
  | case18 a b _ _ _ ih =>
      obtain ⟨insideA, insideB⟩ := usesOnly_binary.1 inside
      simp [insideA, insideB, insideB.lowered, ih insideA]
  | case19 b _ _ _ ih =>
      obtain ⟨-, insideB⟩ := usesOnly_binary.1 inside
      simp [insideB, ih insideB]
  | case20 a b _ _ _ _ ih =>
      obtain ⟨insideA, insideB⟩ := usesOnly_binary.1 inside
      simp [insideA, insideB, ih insideB]
  | case21 a b _ _ _ ih =>
      obtain ⟨insideA, insideB⟩ := usesOnly_binary.1 inside
      exact ih (by simp [insideA, insideB])

theorem occurrences_derivative (v : String) (e : Expr) :
    (e.derivative v).occurrences ⊆ e.occurrences :=
  usesOnly_derivative (List.Subset.refl _)

end Expr

end Formulae
