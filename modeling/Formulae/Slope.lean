import Formulae.Expr.Derivative
import Formulae.Simplifier

/-!
# Slopes of curves

Simplified derivatives, as a plot needs them.

* `slopeBy` differentiates by a given variable.
* `slope` differentiates by the main variable.  Without variables the slope is `0`.
* `implicitSlope` is the slope of the curve `F (x, y) = 0`, minus the derivative by `x` divided by
  the derivative by `y`.
-/

namespace Formulae.Expr

/-- The simplified derivative by a variable. -/
def slopeBy (s : Simplifier) (v : String) (e : Expr) : Except FormulaError Expr :=
  (e.derivative v).simplify s

/-- The simplified derivative by the main variable. -/
def slope (s : Simplifier) (e : Expr) : Except FormulaError Expr :=
  match e.mainVariable? with
  | some v => e.slopeBy s v
  | none => zero.simplify s

/-- The simplified slope of the curve on which the expression is zero. -/
def implicitSlope (s : Simplifier) (e : Expr) : Except FormulaError Expr := do
  let byX ← e.slopeBy s "x"
  let byY ← e.slopeBy s "y"
  .ok (negate (divide byX byY))

end Formulae.Expr
