import Formulae.Expr.Outline
import Formulae.Expr.Typeset
import Formulae.Sampling.Window
import Formulae.Slope

/-!
# Formulas

A formula is an expression together with the text that it was read from and, if it was typed for
a curve, the kind of the curve.  The kind says how many variables the formula may use and how it
is shown.

Derivatives and simplified formulas keep the kind.  Their text is the canonical one.
-/

namespace Formulae

/-- The kind of a curve. -/
inductive CurveKind where
  /-- The curve `y = f (x)`. -/
  | explicit
  /-- The curve `F (x, y) = 0`. -/
  | implicit
  deriving DecidableEq, Repr

namespace CurveKind

/-- The number of variables that a formula for the curve may use. -/
def allowedVariables : CurveKind → Nat
  | .explicit => 1
  | .implicit => 2

/-- The name of a kind. -/
def name : CurveKind → String
  | .explicit => "Explicit"
  | .implicit => "Implicit"

/-- The equation of the curve with a given formula. -/
def equation (kind : CurveKind) (tex : String) : String :=
  match kind with
  | .explicit => "y = " ++ tex
  | .implicit => tex ++ " = 0"

end CurveKind

/-- An expression with its text and its kind of curve. -/
structure Formula where
  /-- The text that it was read from, or its canonical text. -/
  source : String
  /-- The expression. -/
  tree : Expr
  /-- The kind of curve, if there is one. -/
  kind : Option CurveKind

namespace Formula

/-! ## Reading -/

/-- The formula that a text spells. -/
def read (source : String) : Except FormulaError Formula :=
  match parse source with
  | .ok tree => .ok ⟨source, tree, none⟩
  | .error cause => .error (.parse cause)

/-- The variables in the order of their first occurrences. -/
def variableNames (f : Formula) : List String := f.tree.variableNames

/-- The formula that a text spells, if it uses at most a number of variables. -/
def readLimited (allowed : Nat) (source : String) : Except FormulaError Formula := do
  let f ← read source
  let count := f.variableNames.length
  if allowed < count then
    .error (.tooManyVariables count allowed (", ".intercalate f.variableNames))
  else .ok f

/-- The formula that a text spells for a kind of curve. -/
def readFor (kind : CurveKind) (source : String) : Except FormulaError Formula := do
  let f ← readLimited kind.allowedVariables source
  .ok { f with kind := some kind }

/-! ## New formulas -/

/-- The formula with another expression. -/
def withTree (f : Formula) (tree : Expr) : Formula := ⟨tree.canonical, tree, f.kind⟩

/-- The derivative by a variable. -/
def derivative (v : String) (f : Formula) : Formula := f.withTree (f.tree.derivative v)

/-- The formula that a simplifier makes of another. -/
def simplified (s : Simplifier) (f : Formula) : Except FormulaError Formula := do
  let tree ← f.tree.simplify s
  .ok (f.withTree tree)

/-! ## Showing -/

/-- The canonical text. -/
def canonical (f : Formula) : String := f.tree.canonical

/-- The TeX of the formula, as the equation of its curve if it has one. -/
def equation (f : Formula) : String :=
  match f.kind with
  | some kind => kind.equation f.tree.tex
  | none => f.tree.tex

/-- A list of names in quotes and brackets. -/
def quotedNames (names : List String) : String :=
  "[" ++ ", ".intercalate (names.map fun name => "\"" ++ name ++ "\"") ++ "]"

/-- The formula for a reader, without a line break at the end. -/
def display (f : Formula) : String :=
  "Formula: " ++ f.source ++ "\nCanonical: " ++ f.canonical ++ "\nTeX: " ++ f.equation
    ++ "\nVariables: " ++ ", ".intercalate f.variableNames

/-- The fields of the formula, one to a line. -/
def details (f : Formula) : String :=
  let kind :=
    match f.kind with
    | some kind => "Some(" ++ kind.name ++ ")"
    | none => "None"
  "\x7b\n    Source: " ++ f.source ++ "\n    Canonical: " ++ f.canonical
    ++ "\n    Variables: " ++ quotedNames f.variableNames ++ "\n    Kind: " ++ kind ++ "\n\x7d\n"

end Formula

end Formulae
