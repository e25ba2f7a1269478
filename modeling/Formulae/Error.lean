import Formulae.Parser.Error

/-!
# What can go wrong with a formula

The failures of everything that starts from a formula: reading it, checking its variables,
simplifying it, making it executable, and giving it values.  Each failure has a wording.
-/

namespace Formulae

/-- Why an expression cannot be made executable. -/
inductive BuildError where
  /-- The machine is not supported. -/
  | unsupportedMachine (detail : String)
  /-- The function cannot be defined. -/
  | definition (detail : String)
  /-- A name cannot be declared. -/
  | declaration (detail : String)
  deriving DecidableEq, Repr

/-- The wording of a build error. -/
def BuildError.message : BuildError → String
  | .unsupportedMachine detail => "host machine is not supported: " ++ detail
  | .definition detail => "function error: " ++ detail
  | .declaration detail => "declaration error: " ++ detail

/-- A failure of work on a formula. -/
inductive FormulaError where
  /-- The text is no formula. -/
  | parse (cause : ParseError)
  /-- More variables are used than allowed. -/
  | tooManyVariables (count allowed : Nat) (names : String)
  /-- The simplifier gave no answer. -/
  | simplifier (detail : String)
  /-- The expression cannot be made executable. -/
  | build (cause : BuildError)
  /-- The number of values is not the number required. -/
  | inputLength (expected got : Nat)
  deriving DecidableEq, Repr

/-- The wording of a failure. -/
def FormulaError.message : FormulaError → String
  | .parse cause => "Failed to parse formula: " ++ cause.message
  | .tooManyVariables count allowed names =>
    "Too many variables: " ++ Decimal.ofNat count ++ " used (" ++ names ++ "), at most "
      ++ Decimal.ofNat allowed ++ " allowed"
  | .simplifier detail => "Failed to simplify formula: simplifier failed: " ++ detail
  | .build cause => "Failed to build JIT function: " ++ cause.message
  | .inputLength expected got =>
    "Invalid input length: expected " ++ Decimal.ofNat expected ++ ", got " ++ Decimal.ofNat got

end Formulae
