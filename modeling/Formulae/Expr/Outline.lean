import Formulae.Decimal.Notation
import Formulae.Expr.Basic

/-!
# Outlines

An outline shows the tree of an expression with one node to a line.  The operands of a node follow
it, each level indented by two more blanks.
-/

namespace Formulae.Expr

/-- The lines of an outline, each after the given indentation. -/
def outlineLines (indent : String) : Expr → List String
  | literal value => [indent ++ Decimal.plain value]
  | var name => [indent ++ "VARIABLE(" ++ name ++ ")"]
  | constant c => [indent ++ c.rule]
  | binary op l r =>
    (indent ++ op.rule) :: (l.outlineLines (indent ++ "  ") ++ r.outlineLines (indent ++ "  "))
  | apply f u => (indent ++ f.rule) :: u.outlineLines (indent ++ "  ")

/-- The outline. -/
def outline (e : Expr) : String := "\n".intercalate (e.outlineLines "")

end Formulae.Expr
