import Formulae.Number.Nearest

/-!
# Rounding to whole numbers

The whole numbers next to a float, computed from its exact value in steps of `2 ^ -1074`.

* `floorNat` and `ceilNat` are the whole numbers below and above a magnitude.  They read the
  magnitude of a finite float only: the sign is the caller's to test.
* `roundHalfAway` keeps the float type and the sign.  A fraction of one half goes away from zero.
  Infinities and the undefined value stay as they are.
-/

namespace Formulae.Number

/-- The greatest whole number that does not exceed the magnitude of `x`. -/
def floorNat (x : Float) : Nat := steps (code x) / stepsPerUnit

/-- The least whole number that is not less than the magnitude of `x`. -/
def ceilNat (x : Float) : Nat := (steps (code x) + (stepsPerUnit - 1)) / stepsPerUnit

/-- The whole number nearest to `x`, as a float, halves going away from zero. -/
def roundHalfAway (x : Float) : Float :=
  if x.isFinite then
    let whole := (2 * steps (code x) + stepsPerUnit) / (2 * stepsPerUnit)
    ofCode (isNegative x) (nearestCode whole 1)
  else x

end Formulae.Number
