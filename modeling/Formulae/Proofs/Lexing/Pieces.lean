import Formulae.Proofs.Decimal.Digits
import Formulae.Proofs.Lexing.Steps

/-!
# Texts put together from pieces

`Splits position cs ts` says that a piece of text is split into given tokens, whatever follows it.
What follows must break off a number or a run of letters that the piece may end with.  Under this
condition pieces are put together by putting their tokens together (`Splits.append`).
-/

namespace Formulae

open Formulae.Text (isDigit isLetter isSeparator isOpening isClosing isBlank)
open Formulae.Decimal (numeral ofDigits)

/-- The text does not go on with a number or a run of letters that stands before it. -/
def Breaks (cs : List Char) : Prop :=
  ∀ c ∈ cs.head?, isDigit c = false ∧ isLetter c = false ∧ isSeparator c = false

theorem Breaks.nil : Breaks [] := by
  intro c membership
  cases membership

theorem Breaks.cons {c : Char} {cs : List Char} (digit : isDigit c = false)
    (letter : isLetter c = false) (separator : isSeparator c = false) : Breaks (c :: cs) := by
  intro d membership
  obtain rfl : c = d := by simpa using membership
  exact ⟨digit, letter, separator⟩

theorem Breaks.symbol {position : Nat} {c : Char} {cs : List Char} {t : Token}
    (symbol : symbol? position c = some t) : Breaks (c :: cs) := by
  obtain ⟨digit, letter, separator, -⟩ := of_symbol? symbol
  exact .cons digit letter separator

theorem Breaks.append {cs ds : List Char} (first : Breaks cs) (second : Breaks ds) :
    Breaks (cs ++ ds) := by
  cases cs with
  | nil => exact second
  | cons c cs => exact first

/-- The piece of text at a position is split into the tokens. -/
def Splits (position : Nat) (cs : List Char) (ts : List Token) : Prop :=
  ∀ rest, Breaks rest →
    tokensFrom position (cs ++ rest) = (tokensFrom (position + cs.length) rest).map (ts ++ ·)

theorem map_append_map {ε α : Type} (x : Except ε (List α)) (as bs : List α) :
    (x.map (bs ++ ·)).map (as ++ ·) = x.map (as ++ bs ++ ·) := by
  cases x with
  | error cause => rfl
  | ok cs => simp [Except.map]

/-! ## Pieces -/

section

variable {position : Nat} {cs ds : List Char} {ts us : List Token}

theorem Splits.nil : Splits position [] [] := by
  intro rest _
  rw [List.nil_append, List.length_nil, Nat.add_zero]
  cases tokensFrom position rest with
  | error cause => rfl
  | ok tokens => rfl

theorem Splits.append (first : Splits position cs ts) (breaks : Breaks ds)
    (second : Splits (position + cs.length) ds us) : Splits position (cs ++ ds) (ts ++ us) := by
  intro rest restBreaks
  rw [List.append_assoc, first _ (breaks.append restBreaks), second rest restBreaks,
    map_append_map, List.length_append, Nat.add_assoc]

theorem Splits.symbol {c : Char} {t : Token} (symbol : symbol? position c = some t)
    (others : Splits (position + 1) cs ts) : Splits position (c :: cs) (t :: ts) := by
  intro rest restBreaks
  rw [List.cons_append, tokensFrom_symbol symbol, others rest restBreaks, List.length_cons,
    Nat.add_right_comm position 1]
  exact map_append_map _ [t] ts

theorem Splits.blank (others : Splits (position + 1) cs ts) :
    Splits position (' ' :: cs) ts := by
  intro rest restBreaks
  rw [List.cons_append, tokensFrom_blank (by decide), others rest restBreaks, List.length_cons,
    Nat.add_right_comm position 1]
  rfl

theorem Splits.letters (nonempty : cs ≠ []) (letters : ∀ c ∈ cs, isLetter c = true) :
    Splits position cs [Token.text position (String.ofList cs)] := by
  intro rest restBreaks
  exact tokensFrom_run nonempty letters fun d follows => (restBreaks d follows).2.1

theorem Splits.numeral {whole fraction : List Char} (nonempty : whole ≠ [])
    (digits : ∀ c ∈ whole ++ fraction, isDigit c = true) :
    Splits position (numeral whole fraction)
      [Token.number position (ofDigits whole fraction)] := by
  intro rest restBreaks
  obtain ⟨wholeDigits, fractionDigits⟩ := List.forall_mem_append.1 digits
  have stops : ∀ d ∈ rest.head?, isDigit d = false := fun d follows => (restBreaks d follows).1
  cases fraction with
  | nil =>
    exact tokensFrom_whole nonempty wholeDigits stops fun d follows => (restBreaks d follows).2.2
  | cons d ds =>
    exact tokensFrom_separated nonempty wholeDigits (by decide) fractionDigits stops

end

theorem tokenize_of_splits {source : String} {ts : List Token}
    (splits : Splits 0 source.toList ts) :
    tokenize source = .ok (ts ++ [Token.eof (source.toList.length + 1)]) := by
  have whole := splits [] .nil
  rw [List.append_nil, tokensFrom_nil] at whole
  rw [tokenize, whole, Nat.zero_add]
  rfl

end Formulae
