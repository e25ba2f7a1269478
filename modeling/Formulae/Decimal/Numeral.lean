import Formulae.Number.Nearest
import Formulae.Text.Alphabet

/-!
# Reading numerals

`ofDigits` gives the float nearest to a run of decimal digits with a fraction.  It is what a
number in a formula stands for.

`read` accepts the wider notation of numbers typed as options: an optional sign and then

* `inf`, `infinity` or `nan` in any case, or
* digits with an optional decimal point, at least one digit in all, and an optional exponent,
  which is `e` or `E`, an optional sign and at least one digit.

Nothing else may stand before, between or after.  The value is rounded to the nearest float.
`ofScaled` does this for a significand and a power of ten.  It first compares the number of digits
with the range of floats, so that an exponent of any size is read without computing its power.
-/

namespace Formulae.Decimal

open Formulae.Number (nearest ofCode infinityCode)
open Formulae.Text (isDigit)

/-- Why a text is no numeral. -/
inductive NumeralError where
  /-- Nothing was written. -/
  | empty
  /-- The text is not of the form of a number. -/
  | malformed
  deriving DecidableEq, Repr

/-- The wording of a numeral error. -/
def NumeralError.message : NumeralError → String
  | .empty => "cannot parse float from empty string"
  | .malformed => "invalid float literal"

/-- The value of a digit. -/
def digitValue (c : Char) : Nat := c.toNat - '0'.toNat

/-- The number that a run of digits spells. -/
def natOfDigits (ds : List Char) : Nat := ds.foldl (fun n c => 10 * n + digitValue c) 0

/-- The float nearest to the digits of a whole part and of a fraction. -/
def ofDigits (whole fraction : List Char) : Float :=
  nearest (natOfDigits (whole ++ fraction)) (Nat.pow 10 fraction.length)

/-- The number of bits of `n` bounds its number of digits from below and above. -/
def digitBound (n : Nat) : Int := (n.log2 : Int) * 30103 / 100000

/-- The float nearest to `significand * 10 ^ exponent`. -/
def ofScaled (significand : Nat) (exponent : Int) : Float :=
  if significand = 0 then 0
  else if 310 < digitBound significand + exponent then ofCode false infinityCode
  else if digitBound significand + exponent < -330 then 0
  else nearest (significand * Nat.pow 10 exponent.toNat) (Nat.pow 10 (-exponent).toNat)

/-- A sign at the front, and the rest. -/
def splitSign : List Char → Bool × List Char
  | '-' :: rest => (true, rest)
  | '+' :: rest => (false, rest)
  | rest => (false, rest)

/-- The digits after a decimal point, and the rest. -/
def splitFraction : List Char → List Char × List Char
  | '.' :: rest => rest.span isDigit
  | rest => ([], rest)

/-- The exponent that makes up the whole text.  No text is the exponent zero. -/
def readExponent : List Char → Option Int
  | [] => some 0
  | mark :: rest =>
    let (negative, ds) := splitSign rest
    if (mark == 'e' || mark == 'E') && !ds.isEmpty && ds.all isDigit then
      some (if negative then -(natOfDigits ds : Int) else natOfDigits ds)
    else none

/-- The unsigned number that makes up the whole text. -/
def readMagnitude (cs : List Char) : Option Float :=
  let word := cs.map Char.toLower
  if word = "inf".toList || word = "infinity".toList then some (ofCode false infinityCode)
  else if word = "nan".toList then some (0 / 0)
  else
    let (whole, afterWhole) := cs.span isDigit
    let (fraction, afterFraction) := splitFraction afterWhole
    if whole.isEmpty && fraction.isEmpty then none
    else
      (readExponent afterFraction).map fun exponent =>
        ofScaled (natOfDigits (whole ++ fraction)) (exponent - fraction.length)

/-- The number that a text spells. -/
def read (text : String) : Except NumeralError Float :=
  match text.toList with
  | [] => .error .empty
  | cs =>
    let (negative, magnitude) := splitSign cs
    match readMagnitude magnitude with
    | some x => .ok (if negative then -x else x)
    | none => .error .malformed

end Formulae.Decimal
