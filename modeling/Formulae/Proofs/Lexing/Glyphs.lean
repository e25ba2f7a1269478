import Formulae.Token.Lexer
import Mathlib.Tactic.ByContra

/-!
# Characters of one class only

What the lexer asks about a character has at most one answer.  Digits, letters and blanks are apart
by their codes, and separators, operators and brackets are single glyphs.  A bracket is the opening
or the closing glyph of its family, and of no other one.
-/

namespace Formulae

open Formulae.Text (Family isDigit isLetter isSeparator isOperator isOpening isClosing isBlank)

variable {c : Char} {f : Family} {position : Nat}

/-! ## Brackets and their families -/

namespace Text

theorem isOpening_iff : isOpening c = true ↔ ∃ f : Family, c = f.opening := by
  constructor
  · intro opening
    obtain ⟨f, -, glyph⟩ := List.any_eq_true.1 opening
    exact ⟨f, (beq_iff_eq.1 glyph).symm⟩
  · rintro ⟨f, rfl⟩
    cases f <;> decide

theorem isClosing_iff : isClosing c = true ↔ ∃ f : Family, c = f.closing := by
  constructor
  · intro closing
    obtain ⟨f, -, glyph⟩ := List.any_eq_true.1 closing
    exact ⟨f, (beq_iff_eq.1 glyph).symm⟩
  · rintro ⟨f, rfl⟩
    cases f <;> decide

namespace Family

@[simp] theorem ofChar?_opening (f : Family) : ofChar? f.opening = some f := by
  cases f <;> decide

@[simp] theorem ofChar?_closing (f : Family) : ofChar? f.closing = some f := by
  cases f <;> decide

/-- The family of a glyph, and that a glyph has one only. -/
theorem ofChar?_eq_some_iff : ofChar? c = some f ↔ c = f.opening ∨ c = f.closing := by
  constructor
  · intro found
    have glyph := List.find?_some found
    simp only [Bool.or_eq_true, beq_iff_eq] at glyph
    exact glyph.imp Eq.symm Eq.symm
  · rintro (rfl | rfl)
    · exact f.ofChar?_opening
    · exact f.ofChar?_closing

end Family

/-- Whether a character is a bracket. -/
def isBracket (c : Char) : Bool := isOpening c || isClosing c

/-- A character is an opening bracket, a closing one, or none. -/
theorem bracket_cases (c : Char) :
    (∃ f : Family, c = f.opening) ∨ (∃ f : Family, c = f.closing) ∨ isBracket c = false := by
  rw [← isOpening_iff, ← isClosing_iff, isBracket]
  cases isOpening c <;> cases isClosing c <;> simp

@[simp] theorem isOpening_opening (f : Family) : isOpening f.opening = true :=
  isOpening_iff.2 ⟨f, rfl⟩

@[simp] theorem isClosing_closing (f : Family) : isClosing f.closing = true :=
  isClosing_iff.2 ⟨f, rfl⟩

@[simp] theorem isOpening_closing (f : Family) : isOpening f.closing = false := by
  cases f <;> decide

end Text

/-- The class of characters has no bracket in it. -/
def BracketFree (p : Char → Bool) : Prop := ∀ f : Family, p f.opening = false ∧ p f.closing = false

namespace BracketFree

theorem isDigit : BracketFree isDigit := by
  intro f
  cases f <;> decide

theorem isLetter : BracketFree isLetter := by
  intro f
  cases f <;> decide

theorem isSeparator : BracketFree isSeparator := by
  intro f
  cases f <;> decide

theorem isOperator : BracketFree isOperator := by
  intro f
  cases f <;> decide

theorem isBlank : BracketFree isBlank := by
  intro f
  cases f <;> decide

theorem isBracket_eq_false {p : Char → Bool} (free : BracketFree p) (inside : p c = true) :
    Text.isBracket c = false := by
  rcases Text.bracket_cases c with ⟨f, rfl⟩ | ⟨f, rfl⟩ | other
  · simp [(free f).1] at inside
  · simp [(free f).2] at inside
  · exact other

end BracketFree

/-! ## Operators and brackets as symbols -/

theorem isOperator_cases (operator : isOperator c = true) :
    c = '+' ∨ c = '-' ∨ c = '*' ∨ c = '/' ∨ c = '^' := by
  have listed : c ∈ ['+', '-', '*', '/', '^'] := List.elem_iff.1 operator
  simpa using listed

theorem isOperator_iff : isOperator c = true ↔ ∃ kind, Kind.ofOperator? c = some kind := by
  constructor
  · intro operator
    rcases isOperator_cases operator with rfl | rfl | rfl | rfl | rfl <;> exact ⟨_, rfl⟩
  · rintro ⟨kind, operator⟩
    unfold Kind.ofOperator? at operator
    split at operator <;> first | rfl | cases operator

/-- What a character is read as, if it is neither a digit nor a letter. -/
theorem symbol?_eq_none_iff :
    symbol? position c = none ↔
      isOperator c = false ∧ isOpening c = false ∧ isClosing c = false := by
  rw [← Bool.not_eq_true, isOperator_iff, symbol?]
  cases Kind.ofOperator? c <;> cases isOpening c <;> cases isClosing c <;> simp

/-- A symbol is an operator, an opening bracket or a closing one. -/
theorem symbol?_cases {t : Token} (symbol : symbol? position c = some t) :
    (∃ kind, Kind.ofOperator? c = some kind ∧ t = .bare kind position) ∨
      (isOpening c = true ∧ t = .opening position c) ∨
      (isClosing c = true ∧ t = .closing position c) := by
  unfold symbol? at symbol
  split at symbol
  next kind operator =>
    cases symbol
    exact .inl ⟨kind, operator, rfl⟩
  next =>
    split at symbol
    next opening =>
      cases symbol
      exact .inr (.inl ⟨opening, rfl⟩)
    next =>
      split at symbol
      next closing =>
        cases symbol
        exact .inr (.inr ⟨closing, rfl⟩)
      next => cases symbol

theorem symbol?_operator {kind : Kind} (position : Nat)
    (operator : Kind.ofOperator? c = some kind) :
    symbol? position c = some (.bare kind position) := by
  simp [symbol?, operator]

theorem symbol?_opening (position : Nat) (opening : isOpening c = true) :
    symbol? position c = some (.opening position c) := by
  obtain ⟨f, rfl⟩ := Text.isOpening_iff.1 opening
  cases f <;> rfl

theorem symbol?_closing (position : Nat) (closing : isClosing c = true) :
    symbol? position c = some (.closing position c) := by
  obtain ⟨f, rfl⟩ := Text.isClosing_iff.1 closing
  cases f <;> rfl

/-! ## A character of one class is of no other -/

/-- No blank stands between the space and the end of ASCII. -/
theorem toNat_of_isBlank (blank : isBlank c = true) : c.val.toNat ≤ 32 ∨ 127 < c.val.toNat := by
  simp only [isBlank, Text.blankRanges, List.any_cons, List.any_nil, Bool.or_eq_true,
    Bool.and_eq_true, decide_eq_true_eq, Bool.false_eq_true, or_false, Char.toNat] at blank
  omega

theorem toNat_of_isDigit (digit : isDigit c = true) : 48 ≤ c.val.toNat ∧ c.val.toNat ≤ 57 := by
  simpa [isDigit, Char.le_def, UInt32.le_iff_toNat_le] using digit

theorem toNat_of_isLetter (letter : isLetter c = true) :
    (97 ≤ c.val.toNat ∧ c.val.toNat ≤ 122) ∨ (65 ≤ c.val.toNat ∧ c.val.toNat ≤ 90) := by
  simpa [isLetter, Char.le_def, UInt32.le_iff_toNat_le] using letter

theorem isDigit_of_isLetter (letter : isLetter c = true) : isDigit c = false := by
  by_contra digit
  have range := toNat_of_isDigit (Bool.not_eq_false _ ▸ digit)
  have ranges := toNat_of_isLetter letter
  omega

theorem isLetter_eq_false_of_isDigit (digit : isDigit c = true) : isLetter c = false := by
  by_contra letter
  have notDigit := isDigit_of_isLetter (Bool.not_eq_false _ ▸ letter)
  simp [digit] at notDigit

/-- A separator is nothing else. -/
theorem of_isSeparator (position : Nat) (separator : isSeparator c = true) :
    isDigit c = false ∧ isLetter c = false ∧ symbol? position c = none ∧ isBlank c = false := by
  simp only [isSeparator, Bool.or_eq_true, beq_iff_eq] at separator
  rcases separator with rfl | rfl <;> exact ⟨by decide, by decide, rfl, by decide⟩

theorem isSeparator_eq_false_of_isDigit (digit : isDigit c = true) : isSeparator c = false := by
  by_contra separator
  have notDigit := (of_isSeparator 0 (Bool.not_eq_false _ ▸ separator)).1
  simp [digit] at notDigit

theorem isSeparator_eq_false_of_isLetter (letter : isLetter c = true) : isSeparator c = false := by
  by_contra separator
  have notLetter := (of_isSeparator 0 (Bool.not_eq_false _ ▸ separator)).2.1
  simp [letter] at notLetter

/-- An operator or a bracket is nothing else. -/
theorem of_symbol? {t : Token} (symbol : symbol? position c = some t) :
    isDigit c = false ∧ isLetter c = false ∧ isSeparator c = false ∧ isBlank c = false := by
  rcases symbol?_cases symbol with ⟨kind, operator, -⟩ | ⟨opening, -⟩ | ⟨closing, -⟩
  · rcases isOperator_cases (isOperator_iff.2 ⟨kind, operator⟩) with
      rfl | rfl | rfl | rfl | rfl <;> decide
  · obtain ⟨f, rfl⟩ := Text.isOpening_iff.1 opening
    cases f <;> decide
  · obtain ⟨f, rfl⟩ := Text.isClosing_iff.1 closing
    cases f <;> decide

/-- A blank is nothing else. -/
theorem of_isBlank (position : Nat) (blank : isBlank c = true) :
    isDigit c = false ∧ isLetter c = false ∧ isSeparator c = false ∧ symbol? position c = none := by
  have apart := toNat_of_isBlank blank
  refine ⟨?_, ?_, ?_, ?_⟩
  · by_contra digit
    have range := toNat_of_isDigit (Bool.not_eq_false _ ▸ digit)
    omega
  · by_contra letter
    have ranges := toNat_of_isLetter (Bool.not_eq_false _ ▸ letter)
    omega
  · by_contra separator
    have notBlank := (of_isSeparator 0 (Bool.not_eq_false _ ▸ separator)).2.2.2
    simp [blank] at notBlank
  · cases symbol : symbol? position c with
    | none => rfl
    | some t =>
      have notBlank := (of_symbol? symbol).2.2.2
      simp [blank] at notBlank

end Formulae
