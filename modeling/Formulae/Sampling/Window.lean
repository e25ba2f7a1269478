import Formulae.Number.Order
import Formulae.Sampling.Weighted

/-!
# The window of a plot

The vertical range in which an expression is plotted.  It is chosen from three values: those of
the weighted extremes, and between them the average of the values that occur more than once.

`window` takes the least and the greatest finite element of such values and widens them.  An end
that is not zero is multiplied by `1.3`.  When only one end is zero, its side gets `0.3` of the
other end.  When both ends are the same number, the lower one is divided by `1.3` instead.  Without
finite elements, or with no other than zero, the window goes from `-10` to `10`.
-/

namespace Formulae

/-- The weight from which on a value counts as typical. -/
def typicalWeight : Nat := 2

/-- The values that the window must show: the least, the typical and the greatest. -/
def Expr.importantValues (r : Range) (e : Expr) : List Float :=
  let samples := e.samples r
  let (least, greatest) := weightedExtremes samples
  [least.value, weightedAverage (weightedValues samples) typicalWeight, greatest.value]

/-- The window around the ends of the important values. -/
def widened (least greatest : Float) : Float × Float :=
  if least == 0 && greatest == 0 then (-10, 10)
  else if least == greatest then (least / 1.3, least * 1.3)
  else if least == 0 then (-greatest * 0.3, greatest * 1.3)
  else if greatest == 0 then (least * 1.3, -least * 0.3)
  else (least * 1.3, greatest * 1.3)

/-- The window for important values. -/
def window (important : List Float) : Float × Float :=
  match Number.leastAndGreatest (important.filter Float.isFinite) with
  | none => (-10, 10)
  | some (least, greatest) => widened least greatest

end Formulae
