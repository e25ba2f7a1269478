import Formulae.Command.Arguments
import Formulae.Formula.Compiled
import Formulae.Sampling.Quantile

/-!
# Running commands

Each command ends with a code and two texts, one for its output and one for its messages.

A command that fails has the code `1`, no output, and the wording of the failure as its message.
A command line that cannot be understood has the code `2`.
-/

namespace Formulae

/-- The name and the version of the program. -/
def versionText : String := "graphly 0.1.0"

/-- What a command leaves behind. -/
structure Outcome where
  /-- The exit code. -/
  code : Nat
  /-- The text of the output. -/
  output : String
  /-- The text of the messages. -/
  messages : String
  deriving DecidableEq, Repr

/-- Lines, each with a line break at its end. -/
def lines (ls : List String) : String := String.join (ls.map (· ++ "\n"))

/-- The outcome of a success. -/
def Outcome.success (output messages : String) : Outcome := ⟨0, output, messages⟩

/-- The outcome of a failure. -/
def Outcome.failure (error : FormulaError) : Outcome := ⟨1, "", lines ["Error: " ++ error.message]⟩

/-- The outcome of a misused command line. -/
def Outcome.misuse (error : UsageError) : Outcome := ⟨2, "", lines [error.message]⟩

/-- A summary on one line. -/
def Summary.text (s : Summary) : String :=
  "SampleSummary \x7b min: " ++ Decimal.summary s.min
    ++ ", lower_quartile: " ++ Decimal.summary s.lowerQuartile
    ++ ", median: " ++ Decimal.summary s.median
    ++ ", upper_quartile: " ++ Decimal.summary s.upperQuartile
    ++ ", max: " ++ Decimal.summary s.max ++ " \x7d"

namespace Command

/-- The output of showing a formula. -/
def inspection (f : Formula) : String := lines [f.display, "Tree:", f.tree.outline]

/-- The output of differentiating. -/
def derivation (e : Expr) : String :=
  lines ["Derivative: " ++ e.canonical, "Smart: " ++ e.canonicalIn "x", "TeX: " ++ e.tex]

/-- The simplified derivative that a command asks for. -/
def derived (formula : String) (byVariable : Option String) (implicit : Bool) :
    Except FormulaError Expr := do
  if implicit then
    let f ← Formula.readFor .implicit formula
    f.tree.implicitSlope .algebraic
  else
    let f ← Formula.read formula
    match byVariable with
    | some v => f.tree.slopeBy .algebraic v
    | none => f.tree.slope .algebraic

/-- The samples that a command asks for. -/
def sampled (f : Formula) (range : Range) (compiled : Bool) : Except FormulaError (List Sample) :=
  if compiled then do
    let program ← f.build
    let ys ← program.sample range .growing
    .ok (range.points.zip ys)
  else .ok (f.tree.samples range)

/-- The messages about samples. -/
def sampleMessages (f : Formula) (range : Range) (samples : List Sample) : String :=
  let (low, high) := window (f.tree.importantValues range)
  let domain := "Y domain: [" ++ Decimal.plain low ++ ", " ++ Decimal.plain high ++ "]"
  match Summary.ofSamples samples with
  | some summary => lines ["Summary: " ++ summary.text, domain]
  | none => lines [domain]

/-- The output and the messages of a command. -/
def texts : Command → Except FormulaError (String × String)
  | inspect formula => do
    let f ← Formula.read formula
    .ok (inspection f, "")
  | eval formula values => do
    let f ← Formula.read formula
    .ok (lines [Decimal.plain (f.tree.value (Bindings.ofList values))], "")
  | derive formula byVariable implicit => do
    let e ← derived formula byVariable implicit
    .ok (derivation e, "")
  | sample formula range compiled => do
    let f ← Formula.readFor .explicit formula
    let samples ← sampled f range compiled
    let rows := samples.map fun s => Decimal.plain s.1 ++ "," ++ Decimal.plain s.2
    .ok (lines rows, sampleMessages f range samples)

/-- The outcome of a command. -/
def run (c : Command) : Outcome :=
  match c.texts with
  | .ok (output, messages) => .success output messages
  | .error error => .failure error

end Command

/-- The outcome of a request. -/
def Request.outcome : Request → Outcome
  | version => .success (lines [versionText]) ""
  | run command => command.run

/-- The outcome of a command line. -/
def runArguments (arguments : List String) : Outcome :=
  match Request.read arguments with
  | .ok request => request.outcome
  | .error error => .misuse error

end Formulae
