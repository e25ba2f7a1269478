import Formulae.Number.Grid

/-!
# The float nearest to a fraction

`nearest` rounds the fraction `numerator / denominator` to the grid of floats.  The value lies
between two neighbours of the grid, found by `codeAtMost`.  It goes to the nearer one, and a value
halfway between them goes to the one with the even code.  Values from half a step past the
greatest finite float upwards become infinity.

The comparison is made in natural numbers, so the result is exact for every fraction.
-/

namespace Formulae.Number

/-- The magnitude code nearest to `numerator / denominator`, a tie going to the even code. -/
def nearestCode (numerator denominator : Nat) : Nat :=
  let scaled := numerator * stepsPerUnit
  let below := codeAtMost (scaled / denominator)
  let middle := (steps below + steps (below + 1)) * denominator
  let rounded :=
    if 2 * scaled < middle then below
    else if middle < 2 * scaled then below + 1
    else if below % 2 = 0 then below else below + 1
  min rounded infinityCode

/-- The nonnegative float nearest to `numerator / denominator`. -/
def nearest (numerator denominator : Nat) : Float :=
  ofCode false (nearestCode numerator denominator)

/-- The float nearest to a natural number. -/
def ofNat (n : Nat) : Float := nearest n 1

end Formulae.Number
