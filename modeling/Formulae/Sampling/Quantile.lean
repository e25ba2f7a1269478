import Formulae.Number.Order
import Formulae.Number.Rounding
import Formulae.Sampling.Samples

/-!
# Quantiles

The quantile of a list of floats at a fraction `q` from zero to one.  The infinite and undefined
elements are left out and the others sorted.  The quantile stands at the position `q` times the
last index, between its two neighbours in proportion to their distances.  Fractions outside zero
and one count as the nearer of the two.

`Summary.ofSamples` are the five quantiles at the quarters.
-/

namespace Formulae

/-- A number moved into the interval from zero to one. -/
def clampToUnit (q : Float) : Float :=
  if q < 0 then 0 else if 1 < q then 1 else q

/-- The quantile of a sorted list at a fraction. -/
def sortedQuantile (sorted : List Float) (q : Float) : Float :=
  let position := clampToUnit q * Number.ofNat (sorted.length - 1)
  let below := Number.floorNat position
  let above := Number.ceilNat position
  let fraction := position - Number.ofNat below
  sorted.getD below 0 + (sorted.getD above 0 - sorted.getD below 0) * fraction

/-- The quantile of the finite elements at a fraction, if there are any. -/
def quantile (values : List Float) (q : Float) : Option Float :=
  let sorted := Number.sorted (values.filter Float.isFinite)
  if sorted.isEmpty then none else some (sortedQuantile sorted q)

/-- Five numbers that show how values are spread. -/
structure Summary where
  /-- The least value. -/
  min : Float
  /-- The value at a quarter. -/
  lowerQuartile : Float
  /-- The value at the half. -/
  median : Float
  /-- The value at three quarters. -/
  upperQuartile : Float
  /-- The greatest value. -/
  max : Float
  deriving DecidableEq, Repr

/-- The summary of the finite sampled values, if there are any. -/
def Summary.ofSamples (samples : List Sample) : Option Summary := do
  let values := samples.map Prod.snd
  let min ← quantile values 0
  let lowerQuartile ← quantile values 0.25
  let median ← quantile values 0.5
  let upperQuartile ← quantile values 0.75
  let max ← quantile values 1
  some { min, lowerQuartile, median, upperQuartile, max }

end Formulae
