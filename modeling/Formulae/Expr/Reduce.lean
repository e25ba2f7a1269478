import Formulae.Arithmetic.Basic
import Formulae.Expr.Canonical

/-!
# Reduction

`reduce` makes an expression shorter, from the leaves to the root.  At each operation, on operands
that are already reduced:

* two literals are replaced by the result, if it is finite;
* otherwise the first fitting law applies: `x + 0 = x`, `0 + x = x`, `x - 0 = x`, `0 - x = -x`,
  `x - x = 0`, `0 * x = 0`, `x * 0 = 0`, `1 * x = x`, `x * 1 = x`, `-1 * x = -x`, `x * -1 = -x`,
  `0 / x = 0` unless `x` is a literal, `x / 1 = x`, `x ^ 0 = 1`, `1 ^ x = 1`, `x ^ 1 = x`.

A literal is recognised by its number, so `-0` counts as `0`.  The law `x - x = 0` compares
canonical texts.  The negative of `-1 * x` is `x`.

The result of two literals is computed in an arithmetic of floats, which is a parameter.
-/

namespace Formulae.Expr

/-- The negative of an expression, taking an existing factor `-1` away. -/
def negateReduced : Expr → Expr
  | times l r => if l.isLiteral (-1) then r else negate (times l r)
  | e => negate e

/-- The result of two literals, if it is finite. -/
def folded? (A : Arithmetic Float) (op : Operator) : Expr → Expr → Option Expr
  | literal x, literal y =>
    let value := A.combine op x y
    if value.isFinite then some (literal value) else none
  | _, _ => none

/-- An operation after the law that fits its operands. -/
def applyLaw (op : Operator) (l r : Expr) : Expr :=
  match op with
  | .plus =>
    if r.isLiteral 0 then l
    else if l.isLiteral 0 then r
    else plus l r
  | .minus =>
    if r.isLiteral 0 then l
    else if l.isLiteral 0 then negateReduced r
    else if l.sameAs r then zero
    else minus l r
  | .times =>
    if l.isLiteral 0 || r.isLiteral 0 then zero
    else if l.isLiteral 1 then r
    else if r.isLiteral 1 then l
    else if l.isLiteral (-1) then negateReduced r
    else if r.isLiteral (-1) then negateReduced l
    else times l r
  | .divide =>
    if l.isLiteral 0 && !r.isNumber then zero
    else if r.isLiteral 1 then l
    else divide l r
  | .power =>
    if r.isLiteral 0 || l.isLiteral 1 then one
    else if r.isLiteral 1 then l
    else power l r

/-- The reduced expression. -/
def reduce (A : Arithmetic Float) : Expr → Expr
  | binary op l r =>
    let l := l.reduce A
    let r := r.reduce A
    (folded? A op l r).getD (applyLaw op l r)
  | apply f u => apply f (u.reduce A)
  | leaf => leaf

end Formulae.Expr
