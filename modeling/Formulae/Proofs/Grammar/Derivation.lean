import Formulae.Proofs.Grammar.Reading
import Formulae.Token.Stream

/-!
# Derivations

The grammar of formulas as a relation between tokens and trees, without a stream and without an
order in which anything is tried.

`Derives symbol levels tokens e` says that the tokens have a derivation from a symbol with the tree
`e`, in which at most `levels` powers and factors are nested and at some place as many as that.

* An expression is a term, or an expression, `+` or `-`, and a term.
* A term is a power, or a term, `*` or `/`, and a power, or a term and a power that begins with a
  number, a text or an opening bracket.
* A power is a factor, or a factor, `^` and a power.
* A factor is `-` and a factor, an expression in brackets of one family, a number, or a text in one
  of its readings.

Only powers and factors count as levels.  So sums and products of any length cost nothing.
-/

namespace Formulae

/-- The symbols of the grammar, the loosest first. -/
inductive Symbol where
  | expression
  | term
  | power
  | factor
  deriving DecidableEq, Repr

/-- The kinds of token that stand between terms. -/
inductive Additive : Kind → Operator → Prop where
  | plus : Additive .plus .plus
  | minus : Additive .minus .minus

/-- The kinds of token that stand between powers. -/
inductive Multiplicative : Kind → Operator → Prop where
  | times : Multiplicative .times .times
  | divide : Multiplicative .divide .divide

/-- The kinds of token that begin a power which multiplies what stands before it. -/
inductive Juxtaposing : Kind → Prop where
  | number : Juxtaposing .number
  | text : Juxtaposing .text
  | openBracket : Juxtaposing .openBracket

/-- The tokens derive from the symbol with a tree, nesting a number of levels. -/
inductive Derives : Symbol → Nat → List Token → Expr → Prop where
  | ofTerm {n : Nat} {ts : List Token} {e : Expr} :
      Derives .term n ts e → Derives .expression n ts e
  | sum {m n : Nat} {ts us : List Token} {t : Token} {op : Operator} {l r : Expr} :
      Derives .expression m ts l → Additive t.kind op → Derives .term n us r →
      Derives .expression (max m n) (ts ++ t :: us) (.binary op l r)
  | ofPower {n : Nat} {ts : List Token} {e : Expr} :
      Derives .power n ts e → Derives .term n ts e
  | product {m n : Nat} {ts us : List Token} {t : Token} {op : Operator} {l r : Expr} :
      Derives .term m ts l → Multiplicative t.kind op → Derives .power n us r →
      Derives .term (max m n) (ts ++ t :: us) (.binary op l r)
  | juxtaposition {m n : Nat} {ts us : List Token} {t : Token} {l r : Expr} :
      Derives .term m ts l → Juxtaposing t.kind → Derives .power n (t :: us) r →
      Derives .term (max m n) (ts ++ t :: us) (.times l r)
  | ofFactor {n : Nat} {ts : List Token} {e : Expr} :
      Derives .factor n ts e → Derives .power (n + 1) ts e
  | raised {m n : Nat} {ts us : List Token} {t : Token} {base exponent : Expr} :
      Derives .factor m ts base → t.kind = .power → Derives .power n us exponent →
      Derives .power (max m n + 1) (ts ++ t :: us) (.power base exponent)
  | negated {n : Nat} {ts : List Token} {t : Token} {e : Expr} :
      t.kind = .minus → Derives .factor n ts e → Derives .factor (n + 1) (t :: ts) e.negate
  | bracketed {n : Nat} {ts : List Token} {opening closing : Token} {e : Expr} :
      opening.kind = .openBracket → Derives .expression n ts e → closing.kind = .closeBracket →
      opening.family? = closing.family? →
      Derives .factor (n + 1) (opening :: (ts ++ [closing])) e
  | number {t : Token} :
      t.kind = .number → Derives .factor 1 [t] (.literal (t.value?.getD 0))
  | constant {t : Token} {c : Constant} :
      t.kind = .text → Reading t.letters (.constant c) → Derives .factor 1 [t] (.constant c)
  | function {n : Nat} {ts : List Token} {t : Token} {f : Function} {u : Expr} :
      t.kind = .text → Reading t.letters (.function f) → Derives .factor n ts u →
      Derives .factor (n + 1) (t :: ts) (.apply f u)
  | applied {t : Token} {f : Function} {c : Constant} :
      t.kind = .text → Reading t.letters (.applied f c) →
      Derives .factor 1 [t] (.apply f (.constant c))
  | glued {n offset : Nat} {t : Token} {f : Function} {letter : Char} {u : Expr} :
      t.kind = .text → Reading t.letters (.glued f offset letter) →
      Derives .factor n [Token.text (t.position + offset) (String.singleton letter)] u →
      Derives .factor (n + 1) [t] (.apply f u)
  | var {t : Token} {name : String} :
      t.kind = .text → Reading t.letters (.var name) → Derives .factor 1 [t] (.var name)

end Formulae
