import Formulae.Expr.Eval
import Formulae.Expr.Variables
import Formulae.Sampling.Range

/-!
# Samples

A sample is a point of a range with the value of an expression there.  The point is the value of
the main variable, and every other variable is zero.
-/

namespace Formulae

/-- A point and the value there. -/
abbrev Sample := Float × Float

namespace Expr

/-- The value with the main variable at `x`. -/
def valueAt (e : Expr) (x : Float) : Float :=
  e.value (match e.mainVariable? with
    | some name => Bindings.empty.insert name x
    | none => Bindings.empty)

/-- The sample at a point.  The bindings are kept from one point to the next, and a new value of the
variable replaces the one before. -/
def sampleAt (e : Expr) (name? : Option String) (x : Float) : StateM Bindings Sample := do
  if let some name := name? then
    modify fun b => b.insert name x
  let b ← get
  return (x, e.value b)

/-- The samples over a range. -/
def samples (r : Range) (e : Expr) : List Sample :=
  ((r.points.mapM (e.sampleAt e.mainVariable?)).run Bindings.empty).run.1

end Expr

end Formulae
