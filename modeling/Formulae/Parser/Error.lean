import Formulae.Decimal.Notation
import Formulae.Token.Lexer

/-!
# Why a text is no formula

The four causes for which a text cannot be read, each with the position that it points at, and
their wording.
-/

namespace Formulae

/-- The wording of a lexing error. -/
def LexError.message (e : LexError) : String :=
  "unexpected character '" ++ e.character.toString ++ "' at position " ++ Decimal.ofNat e.position

/-- A cause for which a text is no formula. -/
inductive ParseError where
  /-- A character starts no token. -/
  | lexing (cause : LexError)
  /-- A token stands where the grammar requires another kind. -/
  | unexpected (found expected : Kind) (position : Nat)
  /-- A closing bracket is of another family than the opening one. -/
  | mismatch (opening closing : Char) (position : Nat)
  /-- More powers and factors are open at once than allowed. -/
  | tooDeep (limit position : Nat)
  deriving DecidableEq, Repr

namespace ParseError

/-- The position that an error points at. -/
def position : ParseError → Nat
  | lexing cause => cause.position
  | unexpected _ _ position => position
  | mismatch _ _ position => position
  | tooDeep _ position => position

/-- The wording of a parse error. -/
def message : ParseError → String
  | lexing cause => cause.message
  | unexpected found expected position =>
    "expected " ++ expected.name ++ " but found " ++ found.name ++ " at position "
      ++ Decimal.ofNat position
  | mismatch opening closing position =>
    "bracket '" ++ closing.toString ++ "' at position " ++ Decimal.ofNat position
      ++ " does not close '" ++ opening.toString ++ "'"
  | tooDeep limit position =>
    "formula nests deeper than " ++ Decimal.ofNat limit ++ " levels at position "
      ++ Decimal.ofNat position

end ParseError

end Formulae
