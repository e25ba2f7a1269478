import Formulae.Expr.Variables
import Formulae.Number.Rounding
import Formulae.Sampling.Samples

/-!
# Weighted values

Samples are rounded to two decimals and counted, so that values which occur often can be told
from spikes.

* `weightedValues` lists the rounded values of the finite samples, in the order in which they
  first occur, each with its count.
* `weightedExtremes` are the values with the least and the greatest product of value and weight.
  Only a negative product beats the default minimum and only a positive one the default maximum,
  which are both the value `0` with weight `1`.
* `weightedAverage` is the average of the values of at least a required weight.  While there are
  none, the requirement drops by one, down to one.
-/

namespace Formulae

/-- A value and the number of its occurrences. -/
structure Weighted where
  /-- The value. -/
  value : Float := 0
  /-- The number of occurrences. -/
  weight : Nat := 1
  deriving DecidableEq, Repr

/-- The product of value and weight. -/
def Weighted.product (w : Weighted) : Float := w.value * Number.ofNat w.weight

/-- A number rounded to two decimals.  Adding zero takes the sign of a zero away. -/
def hundredths (y : Float) : Float := Number.roundHalfAway (y * 100) / 100 + 0

/-- The rounded values of the finite samples. -/
def roundedValues (samples : List Sample) : List Float :=
  ((samples.map Prod.snd).filter Float.isFinite).map hundredths

/-- The rounded values of the finite samples with their counts, in the order of first
occurrences. -/
def weightedValues (samples : List Sample) : List Weighted :=
  let values := roundedValues samples
  (distinct values).map fun value => ⟨value, values.countP (· = value)⟩

/-- The better of two weighted values for the minimum, the first one if neither is less. -/
def Weighted.lesser (best w : Weighted) : Weighted :=
  if w.product < best.product then w else best

/-- The better of two weighted values for the maximum, the first one if neither is greater. -/
def Weighted.greater (best w : Weighted) : Weighted :=
  if best.product < w.product then w else best

/-- The weighted values with the least and the greatest product. -/
def weightedExtremes (samples : List Sample) : Weighted × Weighted :=
  let values := weightedValues samples
  (values.foldl Weighted.lesser {}, values.foldl Weighted.greater {})

/-- The sum of the products and the sum of the weights. -/
def totals (values : List Weighted) : Float × Nat :=
  values.foldl (fun sums w => (sums.1 + w.product, sums.2 + w.weight)) (0, 0)

/-- The average of the values of at least the greatest weight, from `required` down, that any of
them has. -/
def averageFrom (values : List Weighted) : Nat → Float
  | 0 => 0
  | required + 1 =>
    let (sum, weight) := totals (values.filter fun w => required + 1 ≤ w.weight)
    if 0 < weight then sum / Number.ofNat weight else averageFrom values required

/-- The average of the values of at least a required weight. -/
def weightedAverage (values : List Weighted) (required : Nat) : Float :=
  averageFrom values (max required 1)

end Formulae
