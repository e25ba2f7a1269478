import Formulae.Decimal.Notation
import Formulae.Expr.Basic

/-!
# Canonical text

The text of an expression in which every operation has its own brackets, so that it can be read
back without knowing which operator binds tighter.

* An operation is written `(left op right)` and an application `name(argument)`.
* `cot`, `coth` and `acot` are written out in other functions, so that the text uses no more
  functions than it needs.
* An infinite or undefined literal, which no numeral can spell, is written as a division by zero.

`canonicalWith` writes variables by a given rule.  `canonical` writes their names, and
`canonicalIn` writes one and the same name for all of them.

`sameAs` compares the canonical texts of two expressions.
-/

namespace Formulae

/-- The canonical text of a literal. -/
def canonicalLiteral (value : Float) : String :=
  if value.isNaN then "(0 / 0)"
  else if value.isInf then (if value < 0 then "(-1 / 0)" else "(1 / 0)")
  else Decimal.plain value

/-- The canonical text of a function applied to an argument that is already written. -/
def Function.canonical (f : Function) (u : String) : String :=
  match f with
  | .cot => "(1 / tan(" ++ u ++ "))"
  | .coth => "((e^(2 * " ++ u ++ ") + 1) / (e^(2 * " ++ u ++ ") - 1))"
  | .acot => "((PI / 2) - atan(" ++ u ++ "))"
  | f => f.name ++ "(" ++ u ++ ")"

namespace Expr

/-- The canonical text with the variables written by `writeVar`. -/
def canonicalWith (writeVar : String → String) : Expr → String
  | literal value => canonicalLiteral value
  | var name => writeVar name
  | constant c => c.name
  | binary op l r =>
    "(" ++ l.canonicalWith writeVar ++ " " ++ op.glyph.toString ++ " "
      ++ r.canonicalWith writeVar ++ ")"
  | apply f u => f.canonical (u.canonicalWith writeVar)

/-- The canonical text. -/
def canonical (e : Expr) : String := e.canonicalWith id

/-- The canonical text with every variable written as `name`. -/
def canonicalIn (name : String) (e : Expr) : String := e.canonicalWith fun _ => name

/-- Whether two expressions have the same canonical text. -/
def sameAs (e e' : Expr) : Bool := e.canonical == e'.canonical

end Expr

end Formulae
