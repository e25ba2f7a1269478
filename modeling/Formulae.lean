import Formulae.Arithmetic.Basic
import Formulae.Arithmetic.Machine
import Formulae.Command.Arguments
import Formulae.Command.Printing
import Formulae.Command.Run
import Formulae.Decimal.Notation
import Formulae.Decimal.Numeral
import Formulae.Decimal.Shortest
import Formulae.Error
import Formulae.Expr.Basic
import Formulae.Expr.Canonical
import Formulae.Expr.Derivative
import Formulae.Expr.Eval
import Formulae.Expr.Function
import Formulae.Expr.Operator
import Formulae.Expr.Outline
import Formulae.Expr.Reduce
import Formulae.Expr.Typeset
import Formulae.Expr.Variables
import Formulae.Formula.Basic
import Formulae.Formula.Compiled
import Formulae.Main
import Formulae.Number.Grid
import Formulae.Number.Nearest
import Formulae.Number.Order
import Formulae.Number.Rounding
import Formulae.Parser.Basic
import Formulae.Parser.Error
import Formulae.Parser.Stateful
import Formulae.Parser.Word
import Formulae.Program
import Formulae.Proofs.Canonical.Coth
import Formulae.Proofs.Canonical.Reparse
import Formulae.Proofs.Canonical.RoundTrip
import Formulae.Proofs.Canonical.Spelling
import Formulae.Proofs.Canonical.Unique
import Formulae.Proofs.Canonical.Value
import Formulae.Proofs.Command.Failure
import Formulae.Proofs.Decimal.Digits
import Formulae.Proofs.Decimal.Shortest
import Formulae.Proofs.Derivative.Exact
import Formulae.Proofs.Derivative.Functions
import Formulae.Proofs.Derivative.Literals
import Formulae.Proofs.Derivative.Partial
import Formulae.Proofs.Derivative.Regular
import Formulae.Proofs.Derivative.Rules
import Formulae.Proofs.Derivative.Structural
import Formulae.Proofs.Derivative.Variables
import Formulae.Proofs.Formula.Dependence
import Formulae.Proofs.Formula.Renaming
import Formulae.Proofs.Formula.Steps
import Formulae.Proofs.Grammar.Brackets
import Formulae.Proofs.Grammar.Completeness
import Formulae.Proofs.Grammar.Correspondence
import Formulae.Proofs.Grammar.Derivation
import Formulae.Proofs.Grammar.Failure
import Formulae.Proofs.Grammar.Families
import Formulae.Proofs.Grammar.FirstWrong
import Formulae.Proofs.Grammar.Juxtaposition
import Formulae.Proofs.Grammar.Layout
import Formulae.Proofs.Grammar.Locality
import Formulae.Proofs.Grammar.NestingLimit
import Formulae.Proofs.Grammar.Positions
import Formulae.Proofs.Grammar.Reading
import Formulae.Proofs.Grammar.Recognition
import Formulae.Proofs.Grammar.Rules
import Formulae.Proofs.Grammar.Soundness
import Formulae.Proofs.Grammar.Stateful
import Formulae.Proofs.Grammar.Unlimited
import Formulae.Proofs.Lexing.Exchange
import Formulae.Proofs.Lexing.Glyphs
import Formulae.Proofs.Lexing.Layout
import Formulae.Proofs.Lexing.Lexemes
import Formulae.Proofs.Lexing.Lossless
import Formulae.Proofs.Lexing.Pieces
import Formulae.Proofs.Lexing.Shape
import Formulae.Proofs.Lexing.Steps
import Formulae.Proofs.Number.Bits
import Formulae.Proofs.Number.Comparison
import Formulae.Proofs.Number.Distance
import Formulae.Proofs.Number.Equality
import Formulae.Proofs.Number.Laws
import Formulae.Proofs.Number.Nearest
import Formulae.Proofs.Number.Nonnegative
import Formulae.Proofs.Number.Operations
import Formulae.Proofs.Number.Place
import Formulae.Proofs.Number.Real
import Formulae.Proofs.Number.Rounded
import Formulae.Proofs.Number.Shifts
import Formulae.Proofs.Number.Sorted
import Formulae.Proofs.Number.Steps
import Formulae.Proofs.Program.Evaluation
import Formulae.Proofs.Reduction.FixedPoint
import Formulae.Proofs.Reduction.Laws
import Formulae.Proofs.Reduction.Nesting
import Formulae.Proofs.Reduction.Size
import Formulae.Proofs.Reduction.Value
import Formulae.Proofs.Sampling.Extremes
import Formulae.Proofs.Sampling.Hundredths
import Formulae.Proofs.Sampling.Overflow
import Formulae.Proofs.Sampling.Points
import Formulae.Proofs.Sampling.Quantile
import Formulae.Proofs.Sampling.Range
import Formulae.Proofs.Sampling.Relaxation
import Formulae.Proofs.Sampling.Routes
import Formulae.Proofs.Sampling.Sides
import Formulae.Proofs.Sampling.Summary
import Formulae.Proofs.Sampling.Tally
import Formulae.Proofs.Sampling.Weighted
import Formulae.Proofs.Sampling.Window
import Formulae.Proofs.Token.Queue
import Formulae.Proofs.Typeset.Layout
import Formulae.Proofs.Typeset.Meaning
import Formulae.Proofs.Typeset.Printed
import Formulae.Proofs.Typeset.Reading
import Formulae.Proofs.Typeset.Unique
import Formulae.Sampling.Quantile
import Formulae.Sampling.Range
import Formulae.Sampling.Samples
import Formulae.Sampling.Weighted
import Formulae.Sampling.Window
import Formulae.Simplifier
import Formulae.Slope
import Formulae.Storage
import Formulae.Text.Alphabet
import Formulae.Text.Blank
import Formulae.Token.Basic
import Formulae.Token.Lexer
import Formulae.Token.Queue
import Formulae.Token.Stream
