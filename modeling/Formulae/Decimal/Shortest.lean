import Formulae.Number.Grid

/-!
# Decimals for a float

A `Decimal` is a significand times a power of ten.  Two decimals stand for a positive float.

* `shortest` is the decimal with the fewest digits that reads back as the float.  A decimal reads
  back exactly when it lies in the rounding interval, whose ends are the midpoints to the two
  neighbours of the float, and which contains its ends when the code is even.  The decimals with a
  given exponent `e` form a grid.  The coarsest grid that meets the interval wins, and on it the
  point nearest to the float.  A point halfway between two candidates goes up.
* `significant` is the nearest decimal with a given number of digits, a tie going to the even
  significand.

Everything is compared in whole multiples of half a step, `2 ^ -1075`, the unit in which the
midpoints are whole.  A grid of exponent `e` has one point every `10 ^ e` units, and
`gridSpacing` keeps the two parts of that number apart so that no division is needed.

If a point of a grid lies in the interval, then so does one of the two points next to the float.
So the search looks at two points of each grid only.  It starts at `coarsest`, a grid with no
point in the interval, and goes at most `searchDepth` grids down.
-/

namespace Formulae

/-- The number `significand * 10 ^ exponent`. -/
structure Decimal where
  /-- The digits, as a whole number. -/
  significand : Nat
  /-- The power of ten. -/
  exponent : Int
  deriving DecidableEq, Repr

namespace Decimal

open Formulae.Number (steps stepsPerUnit)

/-! ## The rounding interval -/

/-- The magnitudes that read back as one code, in half steps. -/
structure Interval where
  /-- The midpoint to the neighbour below. -/
  low : Nat
  /-- The float itself. -/
  middle : Nat
  /-- The midpoint to the neighbour above. -/
  high : Nat
  /-- Whether the two midpoints belong to the interval. -/
  closed : Bool

/-- The rounding interval of a magnitude code. -/
def Interval.ofCode (code : Nat) : Interval where
  low := steps (code - 1) + steps code
  middle := 2 * steps code
  high := steps code + steps (code + 1)
  closed := code % 2 == 0

/-- Whether the fraction `numerator / denominator` lies in the interval. -/
def Interval.contains (i : Interval) (numerator denominator : Nat) : Bool :=
  if i.closed then
    decide (i.low * denominator ≤ numerator) && decide (numerator ≤ i.high * denominator)
  else
    decide (i.low * denominator < numerator) && decide (numerator < i.high * denominator)

/-! ## Grids of decimals -/

/-- The distance of two points of the grid of exponent `e`, as a fraction of half steps. -/
def gridSpacing (e : Int) : Nat × Nat :=
  (Nat.pow 10 e.toNat * (2 * stepsPerUnit), Nat.pow 10 (-e).toNat)

/-- The point of the grid of exponent `e` that lies in the interval and next to its middle. -/
def Interval.gridPoint (i : Interval) (e : Int) : Option Nat :=
  let (spacing, denominator) := gridSpacing e
  let middle := i.middle * denominator
  let below := middle / spacing
  let above := below + 1
  match i.contains (below * spacing) denominator, i.contains (above * spacing) denominator with
  | true, true => some (if 2 * middle < (below + above) * spacing then below else above)
  | true, false => some below
  | false, true => some above
  | false, false => none

/-- An exponent whose grid has no point below the end of the interval but zero. -/
def Interval.coarsest (i : Interval) : Int :=
  ((i.middle.log2 : Int) - 1073) * 30103 / 100000 + 1

/-- The number of grids that the search may visit. -/
def searchDepth : Nat := 24

/-- The first point found from the grid of exponent `e` downwards. -/
def Interval.search (i : Interval) : Nat → Int → Decimal
  | 0, e => ⟨i.middle * (gridSpacing e).2 / (gridSpacing e).1, e⟩
  | depth + 1, e =>
    match i.gridPoint e with
    | some n => ⟨n, e⟩
    | none => i.search depth (e - 1)

/-- The shortest decimal that reads back as the float of a positive magnitude code. -/
def shortest (code : Nat) : Decimal :=
  let i := Interval.ofCode code
  i.search searchDepth i.coarsest

/-! ## A fixed number of digits -/

/-- The whole number nearest to `numerator / denominator`, a tie going to the even one. -/
def divideToEven (numerator denominator : Nat) : Nat :=
  let below := numerator / denominator
  let rest := 2 * (numerator % denominator)
  if rest < denominator then below
  else if denominator < rest then below + 1
  else if below % 2 = 0 then below else below + 1

/-- The exponent at which the whole part of the middle has `count` digits, from `e` downwards. -/
def Interval.exponentFor (i : Interval) (count : Nat) : Nat → Int → Int
  | 0, e => e
  | depth + 1, e =>
    let (spacing, denominator) := gridSpacing e
    if Nat.pow 10 (count - 1) ≤ i.middle * denominator / spacing then e
    else i.exponentFor count depth (e - 1)

/-- The nearest decimal with `count` digits to the float of a positive magnitude code. -/
def significant (count code : Nat) : Decimal :=
  let i := Interval.ofCode code
  let e := i.exponentFor count searchDepth (i.coarsest - (count - 1 : Nat))
  let (spacing, denominator) := gridSpacing e
  let n := divideToEven (i.middle * denominator) spacing
  if n = Nat.pow 10 count then ⟨Nat.pow 10 (count - 1), e + 1⟩ else ⟨n, e⟩

end Decimal

end Formulae
