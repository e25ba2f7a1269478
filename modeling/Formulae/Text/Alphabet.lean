/-!
# The alphabet of formulas

The classes of characters that a formula is written with, blanks apart.

* Digits and letters are those of ASCII.
* A point or a comma separates the fraction of a number.
* Five characters are operators.
* Brackets come in four families, each with an opening and a closing glyph.

No character belongs to two classes.
-/

namespace Formulae.Text

/-! ## Digits, letters, separators and operators -/

/-- The characters `0` to `9`. -/
def isDigit (c : Char) : Bool := decide ('0' ≤ c) && decide (c ≤ '9')

/-- The characters `a` to `z` and `A` to `Z`. -/
def isLetter (c : Char) : Bool :=
  (decide ('a' ≤ c) && decide (c ≤ 'z')) || (decide ('A' ≤ c) && decide (c ≤ 'Z'))

/-- The characters between the whole part and the fraction of a number. -/
def isSeparator (c : Char) : Bool := c == '.' || c == ','

/-- The five operator characters. -/
def isOperator (c : Char) : Bool := "+-*/^".toList.contains c

/-! ## Brackets -/

/-- The family of a bracket.  A closing bracket closes an opening one of its own family. -/
inductive Family where
  | round
  | curly
  | square
  | angle
  deriving DecidableEq, Repr

/-- The number of a family, from one to four. -/
def Family.number : Family → Nat
  | .round => 1
  | .curly => 2
  | .square => 3
  | .angle => 4

/-- The opening glyph of a family. -/
def Family.opening : Family → Char
  | .round => '('
  | .curly => '\x7b'
  | .square => '['
  | .angle => '<'

/-- The closing glyph of a family. -/
def Family.closing : Family → Char
  | .round => ')'
  | .curly => '\x7d'
  | .square => ']'
  | .angle => '>'

/-- All families, in the order of their numbers. -/
def Family.all : List Family := [.round, .curly, .square, .angle]

/-- Whether a character is an opening bracket. -/
def isOpening (c : Char) : Bool := Family.all.any fun f => f.opening == c

/-- Whether a character is a closing bracket. -/
def isClosing (c : Char) : Bool := Family.all.any fun f => f.closing == c

/-- The family of a bracket character. -/
def Family.ofChar? (c : Char) : Option Family :=
  Family.all.find? fun f => f.opening == c || f.closing == c

end Formulae.Text
