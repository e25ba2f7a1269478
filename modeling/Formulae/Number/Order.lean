import Formulae.Number.Grid

/-!
# The total order of floats

The order of the number line with `-0` placed right before `0`.  `rank` maps a float to an
integer that grows with it: a nonnegative float goes to its magnitude code and a negative one to
the negative of the number after its code, so that the two zeros get the neighbouring ranks `0`
and `-1`.

`leastAndGreatest` finds both ends of a list in this order.
-/

namespace Formulae.Number

/-- The place of a float in the total order. -/
def rank (x : Float) : Int :=
  if isNegative x then -(code x : Int) - 1 else code x

/-- Whether `x` comes before `y` or is the same float. -/
def atMost (x y : Float) : Bool := decide (rank x ≤ rank y)

/-- The list in increasing order. -/
def sorted (xs : List Float) : List Float := xs.mergeSort atMost

/-- The lesser of two floats. -/
def lesser (x y : Float) : Float := if atMost x y then x else y

/-- The greater of two floats. -/
def greater (x y : Float) : Float := if atMost x y then y else x

/-- The least and the greatest element, `none` for an empty list. -/
def leastAndGreatest : List Float → Option (Float × Float)
  | [] => none
  | x :: xs => some (xs.foldl lesser x, xs.foldl greater x)

end Formulae.Number
