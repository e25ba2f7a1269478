import Formulae.Proofs.Grammar.Recognition
import Formulae.Proofs.Lexing.Pieces

/-!
# Texts of trees

`Spells cs symbol n e` says that a text has a derivation from a symbol with the tree `e` that nests
`n` levels, wherever the text stands.  It hides the tokens and their positions.  There is one lemma
for each way to write a tree, and the texts in them are put together from the texts of the subtrees.
-/

namespace Formulae

open Formulae.Text (isDigit isLetter isSeparator)
open Formulae.Decimal (numeral ofDigits)

/-- The text has a derivation with a tree. -/
def Spells (cs : List Char) (symbol : Symbol) (n : Nat) (e : Expr) : Prop :=
  ∀ position, ∃ ts, Splits position cs ts ∧ Derives symbol n ts e

/-- The text is that of one token, which breaks off what stands before it. -/
structure Separates (sep : List Char) (k : Kind) : Prop where
  /-- What stands before the token ends there. -/
  breaks (ds : List Char) : Breaks (sep ++ ds)
  /-- The token. -/
  splits {position : Nat} {ds : List Char} {us : List Token} :
    Splits (position + sep.length) ds us →
      ∃ t, t.kind = k ∧ Splits position (sep ++ ds) (t :: us)

section

variable {m n : Nat} {cs ds sep : List Char} {symbol symbol' : Symbol} {e l r u : Expr} {k : Kind}
  {op : Operator}

/-! ## Operators -/

/-- An operator character. -/
theorem Separates.glyph {c : Char} (operator : Kind.ofOperator? c = some k) : Separates [c] k := by
  constructor
  · intro ds
    exact .symbol (symbol?_operator 0 operator)
  · intro position ds us others
    exact ⟨Token.bare k position, rfl, others.symbol (symbol?_operator position operator)⟩

/-- An operator character between two blanks. -/
theorem Separates.spaced {c : Char} (operator : Kind.ofOperator? c = some k) :
    Separates [' ', c, ' '] k := by
  constructor
  · intro ds
    exact .cons (by decide) (by decide) (by decide)
  · intro position ds us others
    have afterBlank : Splits (position + 1 + [c].length) (' ' :: ds) us := others.blank
    obtain ⟨t, kind, splits⟩ := (Separates.glyph operator).splits afterBlank
    exact ⟨t, kind, splits.blank⟩

/-- The tokens of two texts with an operator between them. -/
theorem Spells.join (first : Spells cs symbol m l) (separates : Separates sep k)
    (second : Spells ds symbol' n r) (position : Nat) :
    ∃ ts t us, t.kind = k ∧ Splits position (cs ++ (sep ++ ds)) (ts ++ t :: us) ∧
      Derives symbol m ts l ∧ Derives symbol' n us r := by
  obtain ⟨ts, firstSplits, firstDerives⟩ := first position
  obtain ⟨us, secondSplits, secondDerives⟩ := second (position + cs.length + sep.length)
  obtain ⟨t, kind, splits⟩ := separates.splits secondSplits
  exact ⟨ts, t, us, kind, firstSplits.append (separates.breaks ds) splits, firstDerives,
    secondDerives⟩

theorem Spells.sum (first : Spells cs .expression m l) (separates : Separates sep k)
    (additive : Additive k op) (second : Spells ds .term n r) :
    Spells (cs ++ (sep ++ ds)) .expression (max m n) (.binary op l r) := by
  intro position
  obtain ⟨ts, t, us, rfl, splits, firstDerives, secondDerives⟩ :=
    first.join separates second position
  exact ⟨_, splits, .sum firstDerives additive secondDerives⟩

theorem Spells.product (first : Spells cs .term m l) (separates : Separates sep k)
    (multiplicative : Multiplicative k op) (second : Spells ds .power n r) :
    Spells (cs ++ (sep ++ ds)) .term (max m n) (.binary op l r) := by
  intro position
  obtain ⟨ts, t, us, rfl, splits, firstDerives, secondDerives⟩ :=
    first.join separates second position
  exact ⟨_, splits, .product firstDerives multiplicative secondDerives⟩

theorem Spells.raised (first : Spells cs .factor m l) (separates : Separates sep .power)
    (second : Spells ds .power n r) :
    Spells (cs ++ (sep ++ ds)) .power (max m n + 1) (.power l r) := by
  intro position
  obtain ⟨ts, t, us, kind, splits, firstDerives, secondDerives⟩ :=
    first.join separates second position
  exact ⟨_, splits, .raised firstDerives kind secondDerives⟩

/-! ## Symbols -/

theorem Spells.power (factor : Spells cs .factor n e) : Spells cs .power (n + 1) e := by
  intro position
  obtain ⟨ts, splits, derives⟩ := factor position
  exact ⟨ts, splits, .ofFactor derives⟩

theorem Spells.term (power : Spells cs .power n e) : Spells cs .term n e := by
  intro position
  obtain ⟨ts, splits, derives⟩ := power position
  exact ⟨ts, splits, .ofPower derives⟩

theorem Spells.expression (term : Spells cs .term n e) : Spells cs .expression n e := by
  intro position
  obtain ⟨ts, splits, derives⟩ := term position
  exact ⟨ts, splits, .ofTerm derives⟩

/-! ## Factors -/

theorem Spells.negated (factor : Spells cs .factor n e) :
    Spells ('-' :: cs) .factor (n + 1) e.negate := by
  intro position
  obtain ⟨ts, splits, derives⟩ := factor (position + 1)
  exact ⟨_, splits.symbol rfl, .negated rfl derives⟩

theorem Spells.bracketed (inside : Spells cs .expression n e) :
    Spells ('(' :: (cs ++ [')'])) .factor (n + 1) e := by
  intro position
  obtain ⟨ts, splits, derives⟩ := inside (position + 1)
  have closing : Splits (position + 1 + cs.length) [')']
      [Token.closing (position + 1 + cs.length) ')'] := Splits.nil.symbol rfl
  have breaks : Breaks [')'] := .cons (by decide) (by decide) (by decide)
  have opening := (splits.append breaks closing).symbol
    (show symbol? position '(' = some (Token.opening position '(') from rfl)
  exact ⟨_, opening, .bracketed rfl derives rfl rfl⟩

theorem Spells.number {whole fraction : List Char} (nonempty : whole ≠ [])
    (digits : ∀ c ∈ whole ++ fraction, isDigit c = true) :
    Spells (numeral whole fraction) .factor 1 (.literal (ofDigits whole fraction)) := by
  intro position
  exact ⟨_, .numeral nonempty digits, .number rfl⟩

/-- A run of letters. -/
theorem Splits.run {position : Nat} {letters : String} (nonempty : letters.toList ≠ [])
    (allLetters : ∀ c ∈ letters.toList, isLetter c = true) :
    Splits position letters.toList [Token.text position letters] := by
  have splits : Splits position _ _ := .letters nonempty allLetters
  rwa [String.ofList_toList] at splits

theorem Spells.var {name : String} (nonempty : name.toList ≠ [])
    (letters : ∀ c ∈ name.toList, isLetter c = true) (reads : Word.read name = .var name) :
    Spells name.toList .factor 1 (.var name) := by
  intro position
  exact ⟨_, .run nonempty letters, .var rfl (read_eq_iff.1 reads)⟩

theorem Spells.constant (c : Constant) : Spells c.name.toList .factor 1 (.constant c) := by
  intro position
  have nonempty : c.name.toList ≠ [] := by cases c <;> decide
  have letters : ∀ d ∈ c.name.toList, isLetter d = true :=
    List.all_eq_true.1 (by cases c <;> decide)
  have reading : Reading c.name (.constant c) := .constant (by cases c <;> decide)
  exact ⟨_, .run nonempty letters, .constant rfl reading⟩

theorem Spells.function (f : Function) (breaks : Breaks cs) (argument : Spells cs .factor n u) :
    Spells (f.name.toList ++ cs) .factor (n + 1) (.apply f u) := by
  intro position
  have nonempty : f.name.toList ≠ [] := by cases f <;> decide
  have letters : ∀ d ∈ f.name.toList, isLetter d = true :=
    List.all_eq_true.1 (by cases f <;> decide)
  have noConstant : Constant.ofName? f.name = none := by cases f <;> decide
  have reading : Reading f.name (.function f) :=
    .function (Constant.ofName?_eq_none_iff.1 noConstant)
      (Function.ofName?_eq_some_iff.1 (Function.ofName?_name f))
  obtain ⟨ts, splits, derives⟩ := argument (position + f.name.toList.length)
  exact ⟨_, (Splits.run nonempty letters).append breaks splits, .function rfl reading derives⟩

end

end Formulae
