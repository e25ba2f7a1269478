import Formulae.Proofs.Lexing.Glyphs

/-!
# Steps of the lexer

What `tokensFrom` does at the front of a text, one equation for each case: the end of the input, a
digit, a letter, a symbol, a blank, and a character that is refused.  An equation asks for the class
of the first character and not that it is of no other class, since the classes are apart.

From them follow the equations for a whole number and a whole text in front of what breaks them off
(`tokensFrom_whole`, `tokensFrom_separated`, `tokensFrom_run`).
-/

namespace Formulae

open Formulae.Text (isDigit isLetter isSeparator isBlank)
open Formulae.Decimal (ofDigits)

variable {position : Nat} {c : Char} {cs whole fraction letters rest : List Char}

/-- A run of characters of one class ends where a character of another class follows. -/
theorem span_of_head? {p : Char → Bool} (inside : ∀ c ∈ cs, p c = true)
    (outside : ∀ c ∈ rest.head?, p c = false) :
    (cs ++ rest).takeWhile p = cs ∧ (cs ++ rest).dropWhile p = rest := by
  rw [List.takeWhile_append_of_pos inside, List.dropWhile_append_of_pos inside]
  cases rest with
  | nil => simp
  | cons d ds =>
    have stop : p d = false := outside d (by simp)
    simp [stop]

/-! ## The fraction of a number -/

theorem splitFraction_of_head? (bare : ∀ c ∈ cs.head?, isSeparator c = false) :
    splitFraction cs = ([], cs) := by
  cases cs with
  | nil => rfl
  | cons c cs =>
    have notSeparator : isSeparator c = false := bare c (by simp)
    simp [splitFraction, notSeparator]

theorem splitFraction_separator (separator : isSeparator c = true)
    (digits : ∀ d ∈ fraction, isDigit d = true) (stops : ∀ d ∈ rest.head?, isDigit d = false) :
    splitFraction (c :: (fraction ++ rest)) = (fraction, rest) := by
  obtain ⟨run, remaining⟩ := span_of_head? digits stops
  rw [splitFraction, if_pos separator, run, remaining]

/-! ## The first character -/

theorem tokensFrom_nil : tokensFrom position [] = .ok [Token.eof (position + 1)] := by
  rw [tokensFrom]

theorem tokensFrom_digit (digit : isDigit c = true) :
    tokensFrom position (c :: cs) =
      (tokensFrom
        (position + (cs.length + 1 - (splitFraction (cs.dropWhile isDigit)).2.length))
        (splitFraction (cs.dropWhile isDigit)).2).map
        (Token.number position (ofDigits (c :: cs.takeWhile isDigit)
          (splitFraction (cs.dropWhile isDigit)).1) :: ·) := by
  rw [tokensFrom, if_pos digit]

theorem tokensFrom_letter (letter : isLetter c = true) :
    tokensFrom position (c :: cs) =
      (tokensFrom (position + (c :: cs.takeWhile isLetter).length) (cs.dropWhile isLetter)).map
        (Token.text position (String.ofList (c :: cs.takeWhile isLetter)) :: ·) := by
  rw [tokensFrom, if_neg (by simp [isDigit_of_isLetter letter]), if_pos letter]

theorem tokensFrom_symbol {t : Token} (symbol : symbol? position c = some t) :
    tokensFrom position (c :: cs) = (tokensFrom (position + 1) cs).map (t :: ·) := by
  obtain ⟨notDigit, notLetter, -⟩ := of_symbol? symbol
  rw [tokensFrom, if_neg (by simp [notDigit]), if_neg (by simp [notLetter]), symbol]

theorem tokensFrom_blank (blank : isBlank c = true) :
    tokensFrom position (c :: cs) = tokensFrom (position + 1) cs := by
  obtain ⟨notDigit, notLetter, -, noSymbol⟩ := of_isBlank position blank
  rw [tokensFrom, if_neg (by simp [notDigit]), if_neg (by simp [notLetter]), noSymbol]
  dsimp only
  rw [if_pos blank]

theorem tokensFrom_refused (notDigit : ¬ isDigit c = true) (notLetter : ¬ isLetter c = true)
    (noSymbol : symbol? position c = none) (notBlank : ¬ isBlank c = true) :
    tokensFrom position (c :: cs) = .error ⟨c, position⟩ := by
  rw [tokensFrom, if_neg notDigit, if_neg notLetter, noSymbol]
  dsimp only
  rw [if_neg notBlank]

/-! ## Numbers and texts -/

/-- Digits in front of anything else, the separator of a fraction included. -/
theorem tokensFrom_digits {tail : List Char} (nonempty : whole ≠ [])
    (digits : ∀ d ∈ whole, isDigit d = true) (stops : ∀ d ∈ tail.head?, isDigit d = false)
    (split : splitFraction tail = (fraction, rest)) :
    tokensFrom position (whole ++ tail) =
      (tokensFrom (position + (whole.length + tail.length - rest.length)) rest).map
        (Token.number position (ofDigits whole fraction) :: ·) := by
  obtain ⟨c, cs, rfl⟩ := List.exists_cons_of_ne_nil nonempty
  obtain ⟨digit, others⟩ := List.forall_mem_cons.1 digits
  obtain ⟨run, remaining⟩ := span_of_head? others stops
  rw [List.cons_append, tokensFrom_digit digit, run, remaining, split, List.length_append,
    List.length_cons, Nat.add_right_comm cs.length tail.length]

theorem tokensFrom_whole (nonempty : whole ≠ []) (digits : ∀ d ∈ whole, isDigit d = true)
    (stops : ∀ d ∈ rest.head?, isDigit d = false) (bare : ∀ d ∈ rest.head?, isSeparator d = false) :
    tokensFrom position (whole ++ rest) = (tokensFrom (position + whole.length) rest).map
      (Token.number position (ofDigits whole []) :: ·) := by
  rw [tokensFrom_digits nonempty digits stops (splitFraction_of_head? bare), Nat.add_sub_cancel]

theorem tokensFrom_separated (nonempty : whole ≠ []) (digits : ∀ d ∈ whole, isDigit d = true)
    (separator : isSeparator c = true) (fractionDigits : ∀ d ∈ fraction, isDigit d = true)
    (stops : ∀ d ∈ rest.head?, isDigit d = false) :
    tokensFrom position ((whole ++ c :: fraction) ++ rest) =
      (tokensFrom (position + (whole ++ c :: fraction).length) rest).map
        (Token.number position (ofDigits whole fraction) :: ·) := by
  have follows : ∀ d ∈ (c :: (fraction ++ rest)).head?, isDigit d = false := by
    simpa using (of_isSeparator 0 separator).1
  rw [List.append_assoc, List.cons_append, tokensFrom_digits nonempty digits follows
    (splitFraction_separator separator fractionDigits stops)]
  congr 2
  simp only [List.length_append, List.length_cons]
  omega

theorem tokensFrom_run (nonempty : letters ≠ []) (inside : ∀ d ∈ letters, isLetter d = true)
    (stops : ∀ d ∈ rest.head?, isLetter d = false) :
    tokensFrom position (letters ++ rest) = (tokensFrom (position + letters.length) rest).map
      (Token.text position (String.ofList letters) :: ·) := by
  obtain ⟨c, cs, rfl⟩ := List.exists_cons_of_ne_nil nonempty
  obtain ⟨letter, others⟩ := List.forall_mem_cons.1 inside
  obtain ⟨run, remaining⟩ := span_of_head? others stops
  rw [List.cons_append, tokensFrom_letter letter, run, remaining]

end Formulae
