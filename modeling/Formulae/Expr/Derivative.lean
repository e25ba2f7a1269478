import Formulae.Expr.Variables

/-!
# Derivatives

`derivative v e` differentiates an expression by the variable `v`.

* An expression without `v` has the derivative `0`, and `v` itself has `1`.
* An application follows the chain rule, with the derivatives of the functions in
  `outerDerivative`.
* A sum, difference, product or quotient follows its rule, without the terms that stem from an
  operand without `v`.  In particular `a / b` with `v` only in `b` is treated as `a * b ^ -1`.
* A power with exponent `1` has the derivative of its base.  A power with `v` only in the base
  lowers the exponent by one, and a literal exponent is lowered at once.  A power with `v` only in
  the exponent gets the logarithm of its base as a factor, unless the base is `e`.  A power with
  `v` on both sides is treated as `e ^ (b * ln a)`.

Two of these rules differentiate an expression that is not a part of the given one.  `burden`
decreases in each of them: it counts the nodes that mention `v`, with a weight for each
operator that pays for the expression put in its place.
-/

namespace Formulae

/-- The derivative of a function at an argument. -/
def Function.outerDerivative (f : Function) (u : Expr) : Expr :=
  let squared := Expr.power u .two
  let half := Expr.divide .one .two
  match f with
  | .sqrt => .divide .one (.times .two (.apply .sqrt u))
  | .ln => .divide .one u
  | .log => .divide .one (.times u (.apply .ln (.literal 10)))
  | .sin => .apply .cos u
  | .sinh => .apply .cosh u
  | .asin => .divide .one (.power (.minus .one squared) half)
  | .asinh => .divide .one (.apply .sqrt (.plus squared .one))
  | .cos => .negate (.apply .sin u)
  | .cosh => .apply .sinh u
  | .acos => .divide .negativeOne (.power (.minus .one squared) half)
  | .acosh => .divide .one (.apply .sqrt (.minus squared .one))
  | .tan => .divide .one (.power (.apply .cos u) .two)
  | .tanh => .minus .one (.power (.apply .tanh u) .two)
  | .atan => .divide .one (.plus .one squared)
  | .atanh => .divide .one (.minus .one squared)
  | .cot => .divide .negativeOne (.power (.apply .sin u) .two)
  | .coth => .minus .one (.power (.apply .coth u) .two)
  | .acot => .divide .negativeOne (.plus .one squared)

namespace Expr

/-- An exponent lowered by one. -/
def lowered : Expr → Expr
  | literal n => literal (n - 1)
  | b => minus b one

/-- The weight of an operator in `burden`. -/
def operatorBurden (op : Operator) (leftMentions rightMentions : Bool) : Nat :=
  match op with
  | .divide => 6
  | .power => if leftMentions && rightMentions then 7 else 4
  | _ => 1

/-- A bound for the work of differentiating by a variable. -/
def burden (v : String) : Expr → Nat
  | literal _ => 0
  | var name => if name == v then 1 else 0
  | constant _ => 0
  | binary op l r =>
    let leftMentions := l.mentions v
    let rightMentions := r.mentions v
    l.burden v + r.burden v
      + if leftMentions || rightMentions then operatorBurden op leftMentions rightMentions else 0
  | apply _ u => u.burden v + if u.mentions v then 1 else 0

/-- The derivative by a variable. -/
def derivative (v : String) (e : Expr) : Expr :=
  if _occurs : e.mentions v = true then
    match e with
    | literal _ => zero
    | constant _ => zero
    | var _ => one
    | apply f u => times (f.outerDerivative u) (u.derivative v)
    | binary op a b =>
      match _left : a.mentions v, _right : b.mentions v, op with
      | _, false, .plus => a.derivative v
      | false, true, .plus => b.derivative v
      | true, true, .plus => plus (a.derivative v) (b.derivative v)
      | _, false, .minus => a.derivative v
      | false, true, .minus => negate (b.derivative v)
      | true, true, .minus => minus (a.derivative v) (b.derivative v)
      | _, false, .times => times b (a.derivative v)
      | false, true, .times => times a (b.derivative v)
      | true, true, .times => plus (times (a.derivative v) b) (times a (b.derivative v))
      | _, false, .divide => divide (a.derivative v) b
      | false, true, .divide => times a ((power b negativeOne).derivative v)
      | true, true, .divide =>
        divide (minus (times (a.derivative v) b) (times a (b.derivative v))) (power b two)
      | _, false, .power =>
        if b.isLiteral 1 then a.derivative v
        else times (times b (power a b.lowered)) (a.derivative v)
      | false, true, .power =>
        if a = constant .euler then times (power a b) (b.derivative v)
        else times (times (power a b) (apply .ln a)) (b.derivative v)
      | true, true, .power => (power (constant .euler) (times b (apply .ln a))).derivative v
  else zero
termination_by e.burden v
decreasing_by
  all_goals simp_all +decide [burden, mentions, operatorBurden, negativeOne]
  all_goals omega

end Expr

end Formulae
