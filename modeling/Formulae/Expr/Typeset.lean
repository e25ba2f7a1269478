import Formulae.Decimal.Notation
import Formulae.Expr.Basic

/-!
# Typeset formulas

The TeX of an expression.  Fractions and exponents show by their layout what belongs together, so
brackets are written only in these places.

* Around the right side of a difference, around both factors of a product and around an exponent,
  if it is a sum or a difference.
* Around the left factor of a product, if it is an application.
* Around the base of a power and around the argument of a function, if it is an operation or an
  application.
-/

namespace Formulae

/-- The TeX of a literal. -/
def texLiteral (value : Float) : String :=
  if value.isNaN then "\\mathrm\x7bNaN\x7d"
  else if value.isInf then (if value < 0 then "-\\infty" else "\\infty")
  else Decimal.plain value

/-- The text in brackets of the right size, if they are needed. -/
def texGroup (needed : Bool) (text : String) : String :=
  if needed then "\\left(" ++ text ++ "\\right)" else text

/-- The text in braces. -/
def texBraces (text : String) : String := "\x7b" ++ text ++ "\x7d"

namespace Expr

/-- Whether the root is an operation or an application. -/
def isCompound (e : Expr) : Bool := e.operator?.isSome || e.isApplication

/-- The TeX of an expression. -/
def tex : Expr → String
  | literal value => texLiteral value
  | var name => name
  | constant c => c.tex
  | plus l r => l.tex ++ " + " ++ r.tex
  | minus l r => l.tex ++ " - " ++ texGroup r.isAdditive r.tex
  | times l r =>
    texBraces (texGroup (l.isAdditive || l.isApplication) l.tex) ++ " \\cdot "
      ++ texBraces (texGroup r.isAdditive r.tex)
  | divide l r => "\\frac" ++ texBraces l.tex ++ texBraces r.tex
  | power l r =>
    texBraces (texGroup l.isCompound l.tex) ++ "^" ++ texBraces (texGroup r.isAdditive r.tex)
  | apply f u => f.tex ++ texBraces (texGroup u.isCompound u.tex)

end Expr

end Formulae
