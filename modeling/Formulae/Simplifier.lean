import Formulae.Arithmetic.Machine
import Formulae.Error
import Formulae.Expr.Reduce
import Formulae.Parser.Basic

/-!
# Simplifiers

A simplifier answers the canonical text of an expression with another text, or fails with a
reason.  `simplify` asks it and reads the answer as a formula.  The simplifier is a parameter, so
that any other program that speaks the language of formulas can take the place of the two that
are defined here.

* `passthrough` answers with the text it was given.
* `algebraic` reads the text, reduces the expression and writes it again.
-/

namespace Formulae

/-- Something that answers canonical text with other text. -/
structure Simplifier where
  /-- The answer to a text, or the reason why there is none. -/
  answer : String → Except String String

namespace Simplifier

/-- The simplifier that changes nothing. -/
def passthrough : Simplifier where
  answer text := .ok text

/-- The simplifier that reduces. -/
def algebraic : Simplifier where
  answer text :=
    match parse text with
    | .ok e => .ok (e.reduce .machine).canonical
    | .error cause => .error cause.message

end Simplifier

/-- The expression that a simplifier makes of another. -/
def Expr.simplify (s : Simplifier) (e : Expr) : Except FormulaError Expr :=
  match s.answer e.canonical with
  | .error detail => .error (.simplifier detail)
  | .ok text =>
    match parse text with
    | .ok e' => .ok e'
    | .error cause => .error (.parse cause)

end Formulae
