/-!
# The grid of double precision numbers

A finite float is a sign and a *magnitude code*, the number that its remaining 63 bits spell.
Codes count the representable magnitudes in increasing order: code `0` is zero, code `1` the
least positive float, and `infinityCode` comes right after the greatest finite one.

Every finite magnitude is a whole number of steps of `2 ^ -1074`.  `steps` gives that number, so
questions about floats become questions about natural numbers, without any rounding.  With the
formula continued past the end of the grid, `steps infinityCode` is the value at which the next
binade would start, which is what rounding to the nearest float compares with.

`codeAtMost` is the inverse on the grid: the code of the greatest magnitude that does not exceed
a whole number of steps.
-/

namespace Formulae.Number

/-- The number of codes in one binade. -/
def binade : Nat := 1 <<< 52

/-- The number of steps in one unit. -/
def stepsPerUnit : Nat := 1 <<< 1074

/-- The number that the sign bit stands for. -/
def signBit : Nat := 1 <<< 63

/-- The code of infinity, one more than that of the greatest finite magnitude. -/
def infinityCode : Nat := 2047 * binade

/-- Whether the sign bit is set. -/
def isNegative (x : Float) : Bool := decide (signBit ≤ x.toBits.toNat)

/-- The magnitude code: all bits but the sign. -/
def code (x : Float) : Nat := x.toBits.toNat % signBit

/-- The float of a sign and a magnitude code. -/
def ofCode (negative : Bool) (magnitude : Nat) : Float :=
  Float.ofBits (UInt64.ofNat (if negative then signBit + magnitude else magnitude))

/-- The magnitude of a code, in steps of `2 ^ -1074`. -/
def steps (magnitude : Nat) : Nat :=
  match magnitude / binade with
  | 0 => magnitude
  | e + 1 => (binade + magnitude % binade) <<< e

/-- The code of the greatest magnitude of at most `count` steps. -/
def codeAtMost (count : Nat) : Nat :=
  let e := count.log2 - 52
  e * binade + count >>> e

end Formulae.Number
