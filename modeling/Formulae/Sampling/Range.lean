import Formulae.Number.Rounding

/-!
# Ranges of points

A range has a start, an end and a step.  Its points are `start + i * step`, both ends included.

The number of points is that of the whole steps from the start to the end, and one more.  A small
amount is added to the quotient before it is rounded down, so that rounding does not lose the end.
There are at most `maxPoints` points, so a range with a finer step stops short of its end.  A range
with an infinite or undefined field, a step that is not positive, or an end before its start has
no points.
-/

namespace Formulae

/-- A range of points. -/
structure Range where
  /-- The first point. -/
  start : Float := -10
  /-- The bound for the last point. -/
  stop : Float := 10
  /-- The distance between points. -/
  step : Float := 0.01
  deriving DecidableEq, Repr

namespace Range

/-- The greatest number of points of a range. -/
def maxPoints : Nat := 1 <<< 24

/-- Whether the range has a point. -/
def isProper (r : Range) : Bool :=
  r.start.isFinite && r.stop.isFinite && r.step.isFinite
    && !decide (r.step ≤ 0) && !decide (r.stop < r.start)

/-- The number of points. -/
def count (r : Range) : Nat :=
  if r.isProper then
    let intervals := (r.stop - r.start) / r.step + 1e-9
    if Number.ofNat (maxPoints - 1) ≤ intervals then maxPoints
    else Number.floorNat intervals + 1
  else 0

/-- Whether there are no points. -/
def isEmpty (r : Range) : Bool := r.count == 0

/-- A point by its number, whether it is in the range or not. -/
def point (r : Range) (i : Nat) : Float := r.start + Number.ofNat i * r.step

/-- A point of the range by its number. -/
def point? (r : Range) (i : Nat) : Option Float :=
  if i < r.count then some (r.point i) else none

/-- The points in order. -/
def points (r : Range) : List Float := (List.range r.count).map r.point

end Range

end Formulae
