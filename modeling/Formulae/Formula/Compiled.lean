import Formulae.Formula.Basic
import Formulae.Program
import Formulae.Storage

/-!
# Compiled formulas

A compiled formula is the program of a formula, with its variables as slots in the order of their
first occurrences.  It checks the number of the values that it is given.  Sampling needs at most
one variable and a storage that can hold all points of the range.
-/

namespace Formulae

/-- The program of a formula and the names of its slots. -/
structure CompiledFormula where
  /-- The program. -/
  program : Program
  /-- The names of the slots. -/
  variableNames : List String

/-- The compiled formula. -/
def Formula.compile (f : Formula) : CompiledFormula where
  program := Program.compile f.variableNames f.tree
  variableNames := f.variableNames

/-- The compiled formula, if its program can address its variables. -/
def Formula.build (f : Formula) : Except FormulaError CompiledFormula :=
  match Program.build f.variableNames f.tree with
  | .ok program => .ok ⟨program, f.variableNames⟩
  | .error cause => .error (.build cause)

namespace CompiledFormula

/-- The result for one value to each variable. -/
def eval (c : CompiledFormula) (values : List Float) : Except FormulaError Float :=
  if values.length = c.variableNames.length then .ok (c.program.call values)
  else .error (.inputLength c.variableNames.length values.length)

/-- The results over a range, in a given storage. -/
def sample (c : CompiledFormula) (r : Range) (storage : Storage) :
    Except FormulaError (List Float) :=
  if 1 < c.variableNames.length then .error (.inputLength c.variableNames.length 1)
  else
    match storage.zeros? r.count with
    | none => .error (.inputLength r.count (storage.fixedLength?.getD 0))
    | some ys => .ok (ys.mapIdx fun i _ => c.program.call [r.point i])

/-- The names of the slots, for a reader. -/
def details (c : CompiledFormula) : String :=
  "CompiledFormula \x7b variables: " ++ Formula.quotedNames c.variableNames ++ ", .. \x7d"

end CompiledFormula

end Formulae
