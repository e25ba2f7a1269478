import Formulae.Expr.Operator
import Formulae.Expr.Function

/-!
# Arithmetics

An `Arithmetic` on a type gives a meaning to every literal, constant, operator and function of
formulas.  The program evaluates in floats; the same expressions can be read in any other type
that has these operations.

Three functions are not operations of their own but are computed from others:
`cot u = 1 / tan u`, `coth u = 1 / tanh u` and `acot u = pi / 2 - atan u`.
-/

namespace Formulae

/-- The operations that a formula is evaluated with. -/
structure Arithmetic (K : Type) where
  /-- The meaning of a literal. -/
  literal : Float → K
  /-- The base of the natural logarithm. -/
  euler : K
  /-- The ratio of the circumference of a circle to its diameter. -/
  pi : K
  /-- Sums. -/
  plus : K → K → K
  /-- Differences. -/
  minus : K → K → K
  /-- Products. -/
  times : K → K → K
  /-- Quotients. -/
  divide : K → K → K
  /-- Powers. -/
  power : K → K → K
  /-- The square root. -/
  sqrt : K → K
  /-- The natural logarithm. -/
  ln : K → K
  /-- The logarithm to base ten. -/
  log : K → K
  /-- The sine. -/
  sin : K → K
  /-- The hyperbolic sine. -/
  sinh : K → K
  /-- The inverse sine. -/
  asin : K → K
  /-- The inverse hyperbolic sine. -/
  asinh : K → K
  /-- The cosine. -/
  cos : K → K
  /-- The hyperbolic cosine. -/
  cosh : K → K
  /-- The inverse cosine. -/
  acos : K → K
  /-- The inverse hyperbolic cosine. -/
  acosh : K → K
  /-- The tangent. -/
  tan : K → K
  /-- The hyperbolic tangent. -/
  tanh : K → K
  /-- The inverse tangent. -/
  atan : K → K
  /-- The inverse hyperbolic tangent. -/
  atanh : K → K

namespace Arithmetic

variable {K : Type}

/-- The value of a constant. -/
def constant (A : Arithmetic K) : Constant → K
  | .euler => A.euler
  | .pi => A.pi

/-- The result of an operator. -/
def combine (A : Arithmetic K) : Operator → K → K → K
  | .plus => A.plus
  | .minus => A.minus
  | .times => A.times
  | .divide => A.divide
  | .power => A.power

/-- The value of a function. -/
def apply (A : Arithmetic K) : Function → K → K
  | .sqrt => A.sqrt
  | .ln => A.ln
  | .log => A.log
  | .sin => A.sin
  | .sinh => A.sinh
  | .asin => A.asin
  | .asinh => A.asinh
  | .cos => A.cos
  | .cosh => A.cosh
  | .acos => A.acos
  | .acosh => A.acosh
  | .tan => A.tan
  | .tanh => A.tanh
  | .atan => A.atan
  | .atanh => A.atanh
  | .cot => fun u => A.divide (A.literal 1) (A.tan u)
  | .coth => fun u => A.divide (A.literal 1) (A.tanh u)
  | .acot => fun u => A.minus (A.divide A.pi (A.literal 2)) (A.atan u)

end Arithmetic

end Formulae
