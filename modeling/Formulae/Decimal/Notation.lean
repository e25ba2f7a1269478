import Formulae.Decimal.Shortest

/-!
# Floats as text

Three notations, all built from the digits of a `Decimal`.

* `plain` writes the shortest digits with a decimal point where it belongs and never an exponent:
  `0.1`, `6`, `1000000000000000000000`.
* `summary` writes the same digits with a fraction always shown, `4.0`, and changes to a power of
  ten outside the range from `1e-4` up to, but without, `1e16`: `1e20`, `1.5e-7`.
* `scientific` writes a given number of significant digits and always a power of ten:
  `1.50000000000e300`.  Zero, which has no significant digit, is written as by `plain`.

All three write `inf`, `-inf` and `NaN`, and keep the sign of zero.
-/

namespace Formulae.Decimal

open Formulae.Number (code isNegative)

/-! ## Digits -/

/-- The character of a digit. -/
def digitChar (d : Nat) : Char := Char.ofNat ('0'.toNat + d)

/-- The digits of a number, the most significant first.  Zero has one digit. -/
def digits (n : Nat) : List Char :=
  if n < 10 then [digitChar n] else digits (n / 10) ++ [digitChar (n % 10)]
termination_by n

/-- A whole number as text. -/
def ofNat (n : Nat) : String := String.ofList (digits n)

/-- A whole number with its sign. -/
def ofInt (n : Int) : String :=
  if n < 0 then "-" ++ ofNat n.natAbs else ofNat n.natAbs

/-! ## Decimals -/

/-- The digits with the decimal point at its place and no exponent. -/
def positional (d : Decimal) : List Char :=
  let ds := digits d.significand
  if 0 ≤ d.exponent then ds ++ List.replicate d.exponent.toNat '0'
  else
    let places := (-d.exponent).toNat
    if places < ds.length then
      ds.take (ds.length - places) ++ '.' :: ds.drop (ds.length - places)
    else '0' :: '.' :: (List.replicate (places - ds.length) '0' ++ ds)

/-- One digit before the point, the others after it, and the power of ten. -/
def withExponent (d : Decimal) : List Char :=
  let ds := digits d.significand
  let power := d.exponent + (ds.length - 1 : Nat)
  let mantissa :=
    match ds with
    | first :: second :: rest => first :: '.' :: second :: rest
    | short => short
  mantissa ++ 'e' :: (ofInt power).toList

/-! ## Floats -/

/-- The text of a float whose digits, if it is finite and not zero, are written by `finite`. -/
def withSign (zero : List Char) (finite : Nat → List Char) (x : Float) : String :=
  if x.isNaN then "NaN"
  else
    let magnitude :=
      if x.isInf then "inf".toList
      else if code x = 0 then zero
      else finite (code x)
    String.ofList (if isNegative x then '-' :: magnitude else magnitude)

/-- The shortest digits without an exponent. -/
def plain (x : Float) : String :=
  withSign ['0'] (fun c => (shortest c).positional) x

/-- Whether `summary` writes a nonzero float without a power of ten. -/
def isModerate (x : Float) : Bool :=
  let magnitude := x.abs
  decide (1e-4 ≤ magnitude) && decide (magnitude < 1e16)

/-- The shortest digits with a fraction always shown, or with a power of ten. -/
def summary (x : Float) : String :=
  withSign "0.0".toList
    (fun c =>
      let d := shortest c
      if isModerate x then
        if 0 ≤ d.exponent then d.positional ++ ".0".toList else d.positional
      else d.withExponent)
    x

/-- A given number of significant digits and a power of ten. -/
def scientific (count : Nat) (x : Float) : String :=
  withSign ['0'] (fun c => (significant count c).withExponent) x

end Formulae.Decimal
