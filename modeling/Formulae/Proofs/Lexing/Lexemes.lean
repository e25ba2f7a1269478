import Formulae.Proofs.Lexing.Shape
import Mathlib.Algebra.Group.Nat.Defs
import Mathlib.Data.List.Basic

/-!
# Lexemes

A lexeme is a token with the part of the text that it was read from.  `Reads before text after t`
says which token a part of a text is read as, given what stands on both sides of it.

* Digits are a number, with at most one separator inside or behind them.  Neither side goes on with
  a digit, and without a separator the right side does not go on with one either.
* Letters are a text, and neither side goes on with a letter.
* An operator or a bracket is one character, whatever stands next to it.

`Scan before cs ls` says that the rest `cs` of a text consists of the lexemes `ls` in their order and
of blanks.  From it follow, by induction, where the lexemes stand (`Scan.reads`), that they do not
overlap (`Scan.apart`), and that nothing but blanks stands outside them (`Scan.covers`).
-/

namespace Formulae

open Formulae.Text (isDigit isLetter isSeparator isOpening isClosing isBlank)
open Formulae.Number (nearest)
open Formulae.Decimal (natOfDigits)

/-! ## Sides of a part -/

/-- The first character is of a class. -/
def StartsWith (p : Char → Bool) (cs : List Char) : Prop := ∃ c ∈ cs.head?, p c = true

/-- The last character is of a class. -/
def EndsWith (p : Char → Bool) (cs : List Char) : Prop := ∃ c ∈ cs.getLast?, p c = true

section

variable {p : Char → Bool} {c : Char} {cs ds : List Char}

@[simp] theorem not_startsWith_nil : ¬ StartsWith p [] := by simp [StartsWith]

@[simp] theorem startsWith_cons : StartsWith p (c :: cs) ↔ p c = true := by simp [StartsWith]

theorem not_startsWith_iff : ¬ StartsWith p cs ↔ ∀ c ∈ cs.head?, p c = false := by
  simp [StartsWith]

@[simp] theorem not_endsWith_nil : ¬ EndsWith p [] := by simp [EndsWith]

@[simp] theorem endsWith_concat : EndsWith p (cs ++ [c]) ↔ p c = true := by simp [EndsWith]

theorem endsWith_append_of_ne_nil (nonempty : ds ≠ []) :
    EndsWith p (cs ++ ds) ↔ EndsWith p ds := by
  rw [EndsWith, EndsWith, List.getLast?_append_of_ne_nil _ nonempty]

theorem endsWith_of_forall (nonempty : cs ≠ []) (inside : ∀ c ∈ cs, p c = true) :
    EndsWith p cs :=
  ⟨cs.getLast nonempty, List.getLast?_eq_some_getLast nonempty,
    inside _ (List.getLast_mem nonempty)⟩

theorem not_endsWith_of_forall (outside : ∀ c ∈ cs, p c = false) : ¬ EndsWith p cs := by
  rintro ⟨c, last, inside⟩
  simp [outside c (List.mem_of_getLast? last)] at inside

/-- What is left behind a run does not go on with the class of the run. -/
theorem not_startsWith_dropWhile (p : Char → Bool) (cs : List Char) :
    ¬ StartsWith p (cs.dropWhile p) := by
  rintro ⟨c, first, inside⟩
  have outside := List.head?_dropWhile_not p cs
  simp [Option.mem_def.1 first, inside] at outside

end

/-! ## Reading a part -/

/-- The token that a part of a text is read as. -/
inductive Reads (before : List Char) : List Char → List Char → Token → Prop where
  | whole {digits after : List Char} :
      digits ≠ [] → (∀ c ∈ digits, isDigit c = true) → ¬ EndsWith isDigit before →
      ¬ StartsWith isDigit after → ¬ StartsWith isSeparator after →
      Reads before digits after (.number before.length (nearest (natOfDigits digits) 1))
  | separated {digits fraction after : List Char} {separator : Char} :
      digits ≠ [] → (∀ c ∈ digits, isDigit c = true) → isSeparator separator = true →
      (∀ c ∈ fraction, isDigit c = true) → ¬ EndsWith isDigit before →
      ¬ StartsWith isDigit after →
      Reads before (digits ++ separator :: fraction) after
        (.number before.length
          (nearest (natOfDigits (digits ++ fraction)) (10 ^ fraction.length)))
  | letters {letters after : List Char} :
      letters ≠ [] → (∀ c ∈ letters, isLetter c = true) → ¬ EndsWith isLetter before →
      ¬ StartsWith isLetter after →
      Reads before letters after (.text before.length (String.ofList letters))
  | operator {c : Char} {after : List Char} {kind : Kind} :
      Kind.ofOperator? c = some kind → Reads before [c] after (.bare kind before.length)
  | opening {c : Char} {after : List Char} :
      isOpening c = true → Reads before [c] after (.opening before.length c)
  | closing {c : Char} {after : List Char} :
      isClosing c = true → Reads before [c] after (.closing before.length c)

namespace Reads

variable {before text after : List Char} {t : Token}

theorem position_eq (reads : Reads before text after t) : t.position = before.length := by
  cases reads <;> rfl

theorem text_ne_nil (reads : Reads before text after t) : text ≠ [] := by
  cases reads with
  | whole nonempty | letters nonempty => exact nonempty
  | separated | operator | opening | closing => simp

theorem lexed (reads : Reads before text after t) : t.Lexed := by
  cases reads with
  | whole | separated => exact .number _ _
  | letters nonempty letters => exact .text _ (by simpa using nonempty) (by simpa using letters)
  | operator operator => exact .operator _ operator
  | opening opening => exact .opening _ opening
  | closing closing => exact .closing _ closing

end Reads

/-! ## Lexemes of a text -/

/-- A token with the part of a text that it was read from. -/
structure Lexeme where
  /-- The part of the text. -/
  text : List Char
  /-- The token. -/
  token : Token

namespace Lexeme

/-- The number of characters before the lexeme. -/
def start (l : Lexeme) : Nat := l.token.position

/-- The number of characters before the end of the lexeme. -/
def stop (l : Lexeme) : Nat := l.token.position + l.text.length

end Lexeme

/-- The rest of a text consists of lexemes and blanks. -/
inductive Scan : List Char → List Char → List Lexeme → Prop where
  | done {before : List Char} : Scan before [] []
  | blank {before cs : List Char} {c : Char} {ls : List Lexeme} :
      isBlank c = true → Scan (before ++ [c]) cs ls → Scan before (c :: cs) ls
  | lexeme {before text after : List Char} {t : Token} {ls : List Lexeme} :
      Reads before text after t → Scan (before ++ text) after ls →
      Scan before (text ++ after) (⟨text, t⟩ :: ls)

namespace Scan

variable {before cs : List Char} {ls : List Lexeme}

/-- Every lexeme is read between the parts of the text on both sides of it. -/
theorem reads (scan : Scan before cs ls) :
    ∀ l ∈ ls, ∃ front after, before ++ cs = front ++ l.text ++ after ∧
      Reads front l.text after l.token ∧ before.length ≤ l.start := by
  induction scan with
  | done => simp
  | @blank before cs c ls _ _ induction =>
    intro l membership
    obtain ⟨front, after, whole, reads, behind⟩ := induction l membership
    rw [List.append_assoc, List.singleton_append] at whole
    rw [List.length_append] at behind
    exact ⟨front, after, whole, reads, by omega⟩
  | @lexeme before text after t ls reads _ induction =>
    intro l membership
    rcases List.mem_cons.1 membership with rfl | later
    · exact ⟨before, after, (List.append_assoc _ _ _).symm, reads,
        Nat.le_of_eq reads.position_eq.symm⟩
    · obtain ⟨front, rest, whole, laterReads, behind⟩ := induction l later
      rw [List.append_assoc] at whole
      rw [List.length_append] at behind
      exact ⟨front, rest, whole, laterReads, by omega⟩

theorem start_lt_stop (scan : Scan before cs ls) {l : Lexeme} (membership : l ∈ ls) :
    l.start < l.stop := by
  obtain ⟨front, after, -, reads, -⟩ := scan.reads l membership
  have positive := List.length_pos_iff.2 reads.text_ne_nil
  rw [Lexeme.start, Lexeme.stop]
  omega

theorem stop_le (scan : Scan before cs ls) {l : Lexeme} (membership : l ∈ ls) :
    l.stop ≤ (before ++ cs).length := by
  obtain ⟨front, after, whole, reads, -⟩ := scan.reads l membership
  rw [Lexeme.stop, reads.position_eq, whole]
  simp

/-- No lexeme reaches into a later one. -/
theorem apart (scan : Scan before cs ls) : ls.Pairwise fun l m => l.stop ≤ m.start := by
  induction scan with
  | done => exact List.Pairwise.nil
  | blank _ _ induction => exact induction
  | @lexeme before text after t ls reads others induction =>
    refine List.Pairwise.cons ?_ induction
    intro m later
    obtain ⟨-, -, -, -, behind⟩ := others.reads m later
    rw [List.length_append] at behind
    rw [Lexeme.stop, reads.position_eq]
    exact behind

/-- Every character outside the lexemes is a blank. -/
theorem covers (scan : Scan before cs ls) {i : Nat} {c : Char}
    (stands : (before ++ cs)[i]? = some c) (behind : before.length ≤ i) :
    (∃ l ∈ ls, l.start ≤ i ∧ i < l.stop) ∨ isBlank c = true := by
  induction scan with
  | @done before =>
    have inside := (List.getElem?_eq_some_iff.1 stands).1
    simp only [List.append_nil] at inside
    omega
  | @blank before cs d ls blank _ induction =>
    rcases Nat.eq_or_lt_of_le behind with rfl | later
    · obtain rfl : d = c := by simpa using stands
      exact .inr blank
    · refine induction (by simpa using stands) ?_
      rw [List.length_append, List.length_singleton]
      omega
  | @lexeme before text after t ls reads _ induction =>
    by_cases inside : i < before.length + text.length
    · refine .inl ⟨⟨text, t⟩, List.mem_cons_self, ?_⟩
      rw [Lexeme.start, Lexeme.stop, reads.position_eq]
      exact ⟨behind, inside⟩
    · have later : (before ++ text).length ≤ i := by
        rw [List.length_append]
        omega
      rcases induction (by simpa using stands) later with ⟨l, membership, around⟩ | blank
      · exact .inl ⟨l, List.mem_cons_of_mem _ membership, around⟩
      · exact .inr blank

/-- The positions of the tokens increase, up to the end of the input. -/
theorem positions (scan : Scan before cs ls) :
    (ls.map Lexeme.token ++ [Token.eof ((before ++ cs).length + 1)]).Pairwise
      fun t u => t.position < u.position := by
  refine List.pairwise_append.2 ⟨?_, List.pairwise_singleton _ _, ?_⟩
  · rw [List.pairwise_map]
    refine scan.apart.imp_of_mem ?_
    intro l m first _ apart
    exact Nat.lt_of_lt_of_le (scan.start_lt_stop first) apart
  · intro t inFront u last
    obtain ⟨l, membership, rfl⟩ := List.mem_map.1 inFront
    obtain rfl := List.mem_singleton.1 last
    have inside := Nat.lt_of_lt_of_le (scan.start_lt_stop membership) (scan.stop_le membership)
    exact Nat.lt_succ_of_lt inside

end Scan

end Formulae
