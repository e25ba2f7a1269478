import Formulae.Proofs.Lexing.Steps
import Mathlib.Logic.Equiv.Defs

/-!
# Other families of brackets

`Text.exchange σ` replaces a bracket by the one of the image of its family on the same side, and
leaves other characters alone.  A text with exchanged brackets has the tokens of the text, with
their brackets exchanged, and the same error if there is one (`tokensFrom_exchange`).

The lexer looks for digits, letters, separators and blanks, and none of these classes has a bracket
in it (`BracketFree`).  So its runs are as long as before.
-/

namespace Formulae

open Formulae.Text (Family isDigit isLetter isSeparator isOpening isClosing isBlank isBracket)

variable {σ : Equiv.Perm Family} {c : Char} {cs : List Char}

/-! ## Characters -/

namespace Text

/-- The bracket of the image family on the same side. -/
def exchange (σ : Equiv.Perm Family) (c : Char) : Char :=
  match Family.ofChar? c with
  | some f => if isOpening c then (σ f).opening else (σ f).closing
  | none => c

@[simp] theorem exchange_opening (f : Family) : exchange σ f.opening = (σ f).opening := by
  simp [exchange]

@[simp] theorem exchange_closing (f : Family) : exchange σ f.closing = (σ f).closing := by
  simp [exchange]

theorem exchange_eq_self (other : isBracket c = false) : exchange σ c = c := by
  unfold exchange
  split
  next f found =>
    rcases Family.ofChar?_eq_some_iff.1 found with rfl | rfl <;> cases f <;> cases other
  next => rfl

/-- The family of an exchanged bracket. -/
theorem Family.ofChar?_exchange (c : Char) : ofChar? (exchange σ c) = (ofChar? c).map σ := by
  rcases bracket_cases c with ⟨f, rfl⟩ | ⟨f, rfl⟩ | other
  · simp
  · simp
  · rw [exchange_eq_self other]
    cases found : ofChar? c with
    | none => rfl
    | some f =>
      rcases ofChar?_eq_some_iff.1 found with rfl | rfl <;> cases f <;> cases other

end Text

open Text (exchange exchange_eq_self bracket_cases)

namespace BracketFree

variable {p : Char → Bool}

theorem exchange_eq (free : BracketFree p) (inside : p c = true) : exchange σ c = c :=
  exchange_eq_self (free.isBracket_eq_false inside)

theorem apply_exchange (free : BracketFree p) : p (exchange σ c) = p c := by
  rcases bracket_cases c with ⟨f, rfl⟩ | ⟨f, rfl⟩ | other
  · rw [Text.exchange_opening, (free f).1, (free _).1]
  · rw [Text.exchange_closing, (free f).2, (free _).2]
  · rw [exchange_eq_self other]

theorem comp_exchange (free : BracketFree p) : p ∘ exchange σ = p :=
  funext fun _ => free.apply_exchange

theorem takeWhile_exchange (free : BracketFree p) :
    (cs.map (exchange σ)).takeWhile p = cs.takeWhile p := by
  rw [List.takeWhile_map, free.comp_exchange]
  have run : ∀ c ∈ cs.takeWhile p, p c = true := List.all_eq_true.1 List.all_takeWhile
  exact (List.map_congr_left fun c member => free.exchange_eq (run c member)).trans (List.map_id _)

theorem dropWhile_exchange (free : BracketFree p) :
    (cs.map (exchange σ)).dropWhile p = (cs.dropWhile p).map (exchange σ) := by
  rw [List.dropWhile_map, free.comp_exchange]

end BracketFree

/-! ## Tokens -/

/-- The token with its bracket exchanged. -/
def Token.exchange (σ : Equiv.Perm Family) (t : Token) : Token :=
  match t.payload with
  | .bracket glyph => { t with payload := .bracket (Text.exchange σ glyph) }
  | _ => t

namespace Token

variable {t : Token}

@[simp] theorem kind_exchange : (t.exchange σ).kind = t.kind := by
  unfold exchange
  split <;> rfl

@[simp] theorem position_exchange : (t.exchange σ).position = t.position := by
  unfold exchange
  split <;> rfl

@[simp] theorem letters?_exchange : (t.exchange σ).letters? = t.letters? := by
  unfold exchange
  split
  next glyph bracket => rw [letters?, letters?, bracket]
  next => rfl

@[simp] theorem value?_exchange : (t.exchange σ).value? = t.value? := by
  unfold exchange
  split
  next glyph bracket => rw [value?, value?, bracket]
  next => rfl

@[simp] theorem glyph?_exchange : (t.exchange σ).glyph? = t.glyph?.map (Text.exchange σ) := by
  unfold exchange
  split
  next glyph bracket => simp only [glyph?, bracket, Option.map_some]
  next other =>
    unfold glyph?
    split
    next glyph bracket => exact absurd bracket (other glyph)
    next => rfl

end Token

theorem symbol?_exchange (position : Nat) (c : Char) :
    symbol? position (exchange σ c) = (symbol? position c).map (Token.exchange σ) := by
  rcases bracket_cases c with ⟨f, rfl⟩ | ⟨f, rfl⟩ | other
  · rw [Text.exchange_opening, symbol?_opening position (Text.isOpening_opening f),
      symbol?_opening position (Text.isOpening_opening (σ f)), Option.map_some, Token.exchange]
    simp [Token.opening]
  · rw [Text.exchange_closing, symbol?_closing position (Text.isClosing_closing f),
      symbol?_closing position (Text.isClosing_closing (σ f)), Option.map_some, Token.exchange]
    simp [Token.closing]
  · obtain ⟨notOpening, notClosing⟩ := Bool.or_eq_false_iff.1 other
    rw [exchange_eq_self other, symbol?]
    cases Kind.ofOperator? c with
    | some kind => rfl
    | none => simp [notOpening, notClosing]

theorem splitFraction_exchange (cs : List Char) :
    splitFraction (cs.map (exchange σ)) =
      ((splitFraction cs).1, (splitFraction cs).2.map (exchange σ)) := by
  cases cs with
  | nil => rfl
  | cons c cs =>
    rw [List.map_cons, splitFraction, splitFraction, BracketFree.isSeparator.apply_exchange,
      BracketFree.isDigit.takeWhile_exchange, BracketFree.isDigit.dropWhile_exchange]
    split <;> rfl

theorem map_cons_map {ε α : Type} (x : Except ε (List α)) (f : α → α) (a : α) :
    (x.map (a :: ·)).map (List.map f) = (x.map (List.map f)).map (f a :: ·) := by
  cases x with
  | error cause => rfl
  | ok as => rfl

/-- Exchanging the brackets of a text exchanges those of its tokens. -/
theorem tokensFrom_exchange (σ : Equiv.Perm Family) (position : Nat) (cs : List Char) :
    tokensFrom position (cs.map (exchange σ)) =
      (tokensFrom position cs).map (List.map (Token.exchange σ)) := by
  induction position, cs using tokensFrom.induct with
  | case1 position =>
    rw [List.map_nil, tokensFrom_nil]
    rfl
  | case2 position c cs digit tail =>
    rename_i induction
    rw [List.map_cons, BracketFree.isDigit.exchange_eq digit, tokensFrom_digit digit,
      tokensFrom_digit digit, BracketFree.isDigit.takeWhile_exchange,
      BracketFree.isDigit.dropWhile_exchange, splitFraction_exchange, List.length_map,
      List.length_map, map_cons_map]
    exact congrArg _ induction
  | case3 position c cs notDigit letter letters =>
    rename_i induction
    rw [List.map_cons, BracketFree.isLetter.exchange_eq letter, tokensFrom_letter letter,
      tokensFrom_letter letter, BracketFree.isLetter.takeWhile_exchange,
      BracketFree.isLetter.dropWhile_exchange, map_cons_map]
    exact congrArg _ induction
  | case4 position c cs notDigit notLetter token symbol induction =>
    have symbol' : symbol? position (exchange σ c) = some (token.exchange σ) := by
      rw [symbol?_exchange, symbol, Option.map_some]
    rw [List.map_cons, tokensFrom_symbol symbol', tokensFrom_symbol symbol, induction, map_cons_map]
  | case5 position c cs notDigit notLetter noSymbol blank induction =>
    rw [List.map_cons, BracketFree.isBlank.exchange_eq blank, tokensFrom_blank blank,
      tokensFrom_blank blank, induction]
  | case6 position c cs notDigit notLetter noSymbol notBlank =>
    have same : exchange σ c = c := by
      obtain ⟨-, notOpening, notClosing⟩ := symbol?_eq_none_iff.1 noSymbol
      exact exchange_eq_self (Bool.or_eq_false_iff.2 ⟨notOpening, notClosing⟩)
    rw [List.map_cons, same, tokensFrom_refused notDigit notLetter noSymbol notBlank,
      tokensFrom_refused notDigit notLetter noSymbol notBlank]
    rfl

end Formulae
