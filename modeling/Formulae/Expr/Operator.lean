/-!
# Operators and constants

The five binary operators and the two named constants of formulas, with the names that each of
them has in the various outputs.

A constant may be written in several ways.  `Constant.names` lists them in the order in which they
are tried at the end of a run of letters.
-/

namespace Formulae

/-! ## Operators -/

/-- A binary operator. -/
inductive Operator where
  | plus
  | minus
  | times
  | divide
  | power
  deriving DecidableEq, Repr

namespace Operator

/-- All operators, from the loosest to the tightest. -/
def all : List Operator := [.plus, .minus, .times, .divide, .power]

/-- The character of an operator. -/
def glyph : Operator → Char
  | .plus => '+'
  | .minus => '-'
  | .times => '*'
  | .divide => '/'
  | .power => '^'

/-- The name of an operator in outlines. -/
def rule : Operator → String
  | .plus => "PLUS"
  | .minus => "MINUS"
  | .times => "TIMES"
  | .divide => "OBELUS"
  | .power => "POWER"

/-- The operator with a given character. -/
def ofGlyph? (c : Char) : Option Operator := all.find? fun op => op.glyph == c

/-- Sums and differences. -/
def isAdditive : Operator → Bool
  | .plus | .minus => true
  | _ => false

end Operator

/-! ## Constants -/

/-- A named constant. -/
inductive Constant where
  | euler
  | pi
  deriving DecidableEq, Repr

namespace Constant

/-- Every way to write a constant. -/
def names : List (String × Constant) :=
  [("euler", .euler), ("pi", .pi), ("Pi", .pi), ("PI", .pi), ("e", .euler)]

/-- The constant written in a given way. -/
def ofName? (name : String) : Option Constant :=
  (names.find? fun entry => entry.1 == name).map Prod.snd

/-- The name of a constant in canonical text. -/
def name : Constant → String
  | .euler => "e"
  | .pi => "PI"

/-- The name of a constant in TeX. -/
def tex : Constant → String
  | .euler => "e"
  | .pi => "\\pi"

/-- The name of a constant in outlines. -/
def rule : Constant → String
  | .euler => "EULER"
  | .pi => "PI"

end Constant

end Formulae
