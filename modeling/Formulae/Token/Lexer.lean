import Formulae.Token.Basic
import Formulae.Text.Blank
import Formulae.Decimal.Numeral

/-!
# From text to tokens

`tokenize` splits a formula into its tokens, each as long as possible.

* A number is a run of digits, which may contain or end with one separator.  Its value is the
  float nearest to the decimal it spells.
* A text is a run of letters.
* An operator and a bracket are single characters.
* Blanks only separate.

Any other character is an error at its position.  A separator that follows no digit is such a
character, and so is a second separator of one number, because the number ends before it.

The end of the input stands one position after the text, as if a blank followed it.
-/

namespace Formulae

open Formulae.Text (isDigit isLetter isSeparator isOpening isClosing isBlank)

/-- A character that starts no token. -/
structure LexError where
  /-- The character. -/
  character : Char
  /-- The number of characters before it. -/
  position : Nat
  deriving DecidableEq, Repr

/-- The fraction of a number whose whole digits have been read, and the rest. -/
def splitFraction : List Char → List Char × List Char
  | [] => ([], [])
  | c :: cs =>
    if isSeparator c then (cs.takeWhile isDigit, cs.dropWhile isDigit) else ([], c :: cs)

theorem length_dropWhile_le (p : Char → Bool) (cs : List Char) :
    (cs.dropWhile p).length ≤ cs.length :=
  (List.dropWhile_sublist p).length_le

theorem length_splitFraction_le (cs : List Char) : (splitFraction cs).2.length ≤ cs.length := by
  cases cs with
  | nil => simp [splitFraction]
  | cons c cs =>
    have shorter := length_dropWhile_le isDigit cs
    simp only [splitFraction]
    split
    · simp only [List.length_cons]
      omega
    · exact Nat.le_refl _

/-- The token of an operator or a bracket. -/
def symbol? (position : Nat) (c : Char) : Option Token :=
  match Kind.ofOperator? c with
  | some kind => some (Token.bare kind position)
  | none =>
    if isOpening c then some (Token.opening position c)
    else if isClosing c then some (Token.closing position c)
    else none

/-- The tokens of a text that starts at `position`. -/
def tokensFrom (position : Nat) : List Char → Except LexError (List Token)
  | [] => .ok [Token.eof (position + 1)]
  | c :: cs =>
    if isDigit c then
      let whole := c :: cs.takeWhile isDigit
      let tail := splitFraction (cs.dropWhile isDigit)
      let token := Token.number position (Decimal.ofDigits whole tail.1)
      (tokensFrom (position + (cs.length + 1 - tail.2.length)) tail.2).map (token :: ·)
    else if isLetter c then
      let letters := c :: cs.takeWhile isLetter
      let token := Token.text position (String.ofList letters)
      (tokensFrom (position + letters.length) (cs.dropWhile isLetter)).map (token :: ·)
    else
      match symbol? position c with
      | some token => (tokensFrom (position + 1) cs).map (token :: ·)
      | none =>
        if isBlank c then tokensFrom (position + 1) cs
        else .error ⟨c, position⟩
termination_by cs => cs.length
decreasing_by
  · exact Nat.lt_succ_of_le
      (Nat.le_trans (length_splitFraction_le _) (length_dropWhile_le isDigit cs))
  · exact Nat.lt_succ_of_le (length_dropWhile_le isLetter cs)
  · exact Nat.lt_succ_self _
  · exact Nat.lt_succ_self _

/-- The tokens of a formula, the end of the input last. -/
def tokenize (source : String) : Except LexError (List Token) := tokensFrom 0 source.toList

end Formulae
