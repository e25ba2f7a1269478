import Formulae.Expr.Operator
import Formulae.Expr.Function

/-!
# Expressions

The tree of a formula.  A leaf is a literal, a variable or a constant.  A node applies a binary
operator or a function.  There is no node for a sign: `negate` turns a literal into its negative
and puts the factor `-1` in front of anything else.

Two equalities are in use.  `=` compares literals bit by bit.  `agrees` compares them as numbers,
so that the two zeros agree and an undefined literal does not agree with itself.  The rules of
`Formulae.Expr.Reduce` recognise a literal in the second way, by `isLiteral`.
-/

namespace Formulae

/-- The tree of a formula. -/
inductive Expr where
  | literal (value : Float)
  | var (name : String)
  | constant (c : Constant)
  | binary (op : Operator) (left right : Expr)
  | apply (f : Function) (argument : Expr)
  deriving DecidableEq, Repr

namespace Expr

/-! ## Building expressions -/

/-- A sum. -/
@[match_pattern] abbrev plus (left right : Expr) : Expr := binary .plus left right

/-- A difference. -/
@[match_pattern] abbrev minus (left right : Expr) : Expr := binary .minus left right

/-- A product. -/
@[match_pattern] abbrev times (left right : Expr) : Expr := binary .times left right

/-- A quotient. -/
@[match_pattern] abbrev divide (left right : Expr) : Expr := binary .divide left right

/-- A power. -/
@[match_pattern] abbrev power (left right : Expr) : Expr := binary .power left right

/-- The literal `0`. -/
def zero : Expr := literal 0

/-- The literal `1`. -/
def one : Expr := literal 1

/-- The literal `2`. -/
def two : Expr := literal 2

/-- The literal `-1`. -/
def negativeOne : Expr := literal (-1)

/-- The negative of an expression. -/
def negate : Expr → Expr
  | literal value => literal (-value)
  | e => times negativeOne e

/-! ## Looking at the root -/

/-- Whether the expression is a literal. -/
def isNumber : Expr → Bool
  | literal _ => true
  | _ => false

/-- Whether the expression is a literal equal to a number. -/
def isLiteral (e : Expr) (number : Float) : Bool :=
  match e with
  | literal value => value == number
  | _ => false

/-- The operator at the root. -/
def operator? : Expr → Option Operator
  | binary op _ _ => some op
  | _ => none

/-- Whether a function is applied at the root. -/
def isApplication : Expr → Bool
  | apply _ _ => true
  | _ => false

/-- Whether the root is a sum or a difference. -/
def isAdditive (e : Expr) : Bool := e.operator?.any Operator.isAdditive

/-! ## Agreement -/

/-- The same tree, with literals compared as numbers. -/
def agrees : Expr → Expr → Bool
  | literal x, literal y => x == y
  | var x, var y => x == y
  | constant x, constant y => x == y
  | binary op l r, binary op' l' r' => op == op' && agrees l l' && agrees r r'
  | apply f u, apply f' u' => f == f' && agrees u u'
  | _, _ => false

end Expr

end Formulae
