import Formulae.Command.Run

/-!
# Printing as it goes

`Command.texts` has all the texts of a command or none.  A program that prints each line as soon as it
has it does not have this choice: what it printed before it failed stays printed.
-/

namespace Formulae

/-- What has been printed. -/
structure Transcript where
  /-- The text of the output. -/
  output : String
  /-- The text of the messages. -/
  messages : String

/-- Work that prints, and that stops where it fails. -/
abbrev Printing := ExceptT FormulaError (StateM Transcript)

namespace Printing

variable {α : Type}

/-- The result of work behind what has been printed before, and what has been printed after it. -/
def behind (t : Transcript) (work : Printing α) : Except FormulaError α × Transcript :=
  StateT.run (ExceptT.run work) t

/-- Prints a line of output. -/
def line (text : String) : Printing Unit :=
  modify fun t => { t with output := t.output ++ text ++ "\n" }

/-- Prints a line of messages. -/
def message (text : String) : Printing Unit :=
  modify fun t => { t with messages := t.messages ++ text ++ "\n" }

end Printing

open Printing

namespace Command

/-- Prints a derivative. -/
def printDerivative (e : Expr) : Printing Unit := do
  line ("Derivative: " ++ e.canonical)
  line ("Smart: " ++ e.canonicalIn "x")
  line ("TeX: " ++ e.tex)

/-- Prints samples, with what there is to say about them. -/
def printSamples (f : Formula) (range : Range) (samples : List Sample) : Printing Unit := do
  forM (samples.map fun s => Decimal.plain s.1 ++ "," ++ Decimal.plain s.2) line
  if let some summary := Summary.ofSamples samples then
    message ("Summary: " ++ summary.text)
  let (low, high) := window (f.tree.importantValues range)
  message ("Y domain: [" ++ Decimal.plain low ++ ", " ++ Decimal.plain high ++ "]")

/-- The work of a command, with every line printed as soon as it is known. -/
def perform : Command → Printing Unit
  | inspect formula => do
    let f ← Formula.read formula
    line f.display
    line ("Tree:\n" ++ f.tree.outline)
  | eval formula values => do
    let f ← Formula.read formula
    line (Decimal.plain (f.tree.value (Bindings.ofList values)))
  | derive formula byVariable implicit => do
    let f ← if implicit then Formula.readFor .implicit formula else Formula.read formula
    let e ←
      match implicit, byVariable with
      | true, _ => f.tree.implicitSlope .algebraic
      | false, some v => f.tree.slopeBy .algebraic v
      | false, none => f.tree.slope .algebraic
    printDerivative e
  | sample formula range compiled => do
    let f ← Formula.readFor .explicit formula
    let samples ←
      if compiled then do
        let c ← f.build
        let ys ← c.sample range .growing
        pure (range.points.zip ys)
      else pure (f.tree.samples range)
    printSamples f range samples

/-- The outcome of a program that performs a command. -/
def performed (c : Command) : Outcome :=
  match behind ⟨"", ""⟩ c.perform with
  | (.ok _, t) => ⟨0, t.output, t.messages⟩
  | (.error error, t) => ⟨1, t.output, t.messages ++ "Error: " ++ error.message ++ "\n"⟩

end Command

end Formulae
