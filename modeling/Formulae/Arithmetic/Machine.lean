import Formulae.Arithmetic.Basic

/-!
# Machine arithmetic

The arithmetic of double precision floats.  Sums, differences, products, quotients and square
roots are the nearest floats to the exact results.  Powers, logarithms, and the circular and
hyperbolic functions with their inverses are those of the machine, with one exception.

The inverse hyperbolic sine and cosine are no exceptions: neither is the logarithm of a sum.  Such a sum
would overflow for great arguments, but the functions of the machine are finite up to the greatest float.
The inverse hyperbolic cosine of `1e308` is close to `709.889`.

The inverse hyperbolic tangent of `x` is half the logarithm of `1 + 2 * x / (1 - x)`.  Near `-1` the
quotient is close to `-1`, and its rounding shows in the result, which is therefore not odd there.
-/

namespace Formulae.Arithmetic

/-- The natural logarithm of `1 + x`.  The quotient repairs what rounding `1 + x` lost. -/
def logOnePlus (x : Float) : Float :=
  let sum := 1 + x
  if sum == 1 then x
  else if x.isInf then Float.log sum
  else Float.log sum * (x / (sum - 1))

/-- The inverse hyperbolic tangent. -/
def inverseTanh (x : Float) : Float := 0.5 * logOnePlus (2 * x / (1 - x))

/-- The arithmetic of double precision floats. -/
def machine : Arithmetic Float where
  literal x := x
  euler := 2.718281828459045
  pi := 3.141592653589793
  plus x y := x + y
  minus x y := x - y
  times x y := x * y
  divide x y := x / y
  power := Float.pow
  sqrt := Float.sqrt
  ln := Float.log
  log := Float.log10
  sin := Float.sin
  sinh := Float.sinh
  asin := Float.asin
  asinh := Float.asinh
  cos := Float.cos
  cosh := Float.cosh
  acos := Float.acos
  acosh := Float.acosh
  tan := Float.tan
  tanh := Float.tanh
  atan := Float.atan
  atanh := inverseTanh

end Formulae.Arithmetic
