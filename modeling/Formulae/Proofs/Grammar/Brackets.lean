import Formulae.Proofs.Grammar.Derivation
import Formulae.Proofs.Lexing.Shape

/-!
# Open brackets

`opened stack ts` are the brackets that are open behind the tokens `ts`, if those of `stack` are open
in front of them, the innermost first.  A closing bracket closes the innermost one, whatever its
family.  Derived tokens leave the brackets as they are (`Derives.opened_eq`).

`Token.closer` is a token that closes an opening bracket.
-/

namespace Formulae

open Formulae.Text (Family)

variable {stack ts us : List Token} {t u : Token}

/-! ## The innermost bracket -/

/-- The open brackets behind one token. -/
def Token.nest (stack : List Token) (t : Token) : List Token :=
  match t.kind with
  | .openBracket => t :: stack
  | .closeBracket => stack.tail
  | _ => stack

/-- The open brackets behind tokens, the innermost first. -/
def opened (stack ts : List Token) : List Token := ts.foldl Token.nest stack

@[simp] theorem opened_nil : opened stack [] = stack := rfl

@[simp] theorem opened_cons : opened stack (t :: ts) = opened (t.nest stack) ts := rfl

@[simp] theorem opened_append : opened stack (ts ++ us) = opened (opened stack ts) us :=
  List.foldl_append

@[simp] theorem Token.nest_openBracket (kind : t.kind = .openBracket) :
    t.nest stack = t :: stack := by
  simp [nest, kind]

@[simp] theorem Token.nest_closeBracket (kind : t.kind = .closeBracket) :
    t.nest stack = stack.tail := by
  simp [nest, kind]

/-- The kind of a bracket. -/
def Kind.IsBracket (kind : Kind) : Prop := kind = .openBracket ∨ kind = .closeBracket

theorem Token.nest_other (other : ¬ t.kind.IsBracket) : t.nest stack = stack := by
  unfold nest
  split
  next kind => exact absurd (.inl kind) other
  next kind => exact absurd (.inr kind) other
  next => rfl

theorem Kind.not_isBracket_of_ofOperator? {c : Char} {kind : Kind}
    (operator : ofOperator? c = some kind) : ¬ kind.IsBracket := by
  unfold ofOperator? at operator
  split at operator <;> cases operator <;> simp [IsBracket]

theorem Additive.not_isBracket {kind : Kind} {op : Operator} (additive : Additive kind op) :
    ¬ kind.IsBracket := by
  cases additive <;> simp [Kind.IsBracket]

theorem Multiplicative.not_isBracket {kind : Kind} {op : Operator}
    (multiplicative : Multiplicative kind op) : ¬ kind.IsBracket := by
  cases multiplicative <;> simp [Kind.IsBracket]

/-- Every open bracket is an opening bracket that stands somewhere. -/
theorem mem_opened (membership : u ∈ opened stack ts) :
    u ∈ stack ∨ (u ∈ ts ∧ u.kind = .openBracket) := by
  induction ts generalizing stack with
  | nil => exact .inl membership
  | cons t ts induction =>
    rcases induction membership with inNest | ⟨later, kind⟩
    · unfold Token.nest at inNest
      split at inNest
      next kind =>
        rcases List.mem_cons.1 inNest with rfl | inStack
        · exact .inr ⟨List.mem_cons_self, kind⟩
        · exact .inl inStack
      next => exact .inl (List.mem_of_mem_tail inNest)
      next => exact .inl inNest
    · exact .inr ⟨List.mem_cons_of_mem t later, kind⟩

/-- What is derived opens no bracket without closing it, and closes none of those before it. -/
theorem Derives.opened_eq {symbol : Symbol} {n : Nat} {e : Expr}
    (derivation : Derives symbol n ts e) : ∀ stack, opened stack ts = stack := by
  induction derivation with
  | ofTerm _ induction | ofPower _ induction | ofFactor _ induction => exact induction
  | sum _ additive _ first second =>
    intro stack
    simp [first, second, Token.nest_other additive.not_isBracket]
  | product _ multiplicative _ first second =>
    intro stack
    simp [first, second, Token.nest_other multiplicative.not_isBracket]
  | juxtaposition _ _ _ first second =>
    intro stack
    rw [opened_append, first, second]
  | raised _ raising _ first second =>
    intro stack
    rw [opened_append, first, opened_cons, second,
      Token.nest_other (by simp [Kind.IsBracket, raising])]
  | negated kind _ operand | function kind _ _ operand =>
    intro stack
    rw [opened_cons, operand, Token.nest_other (by simp [Kind.IsBracket, kind])]
  | bracketed opens _ closes _ inside =>
    intro stack
    simp [Token.nest_openBracket opens, inside, Token.nest_closeBracket closes]
  | number kind | constant kind | applied kind | glued kind | var kind =>
    intro stack
    exact Token.nest_other (by simp [Kind.IsBracket, kind])

/-! ## Closing a bracket -/

/-- A closing bracket of the family of an opening one. -/
def Token.closer (t : Token) : Token :=
  match t.family? with
  | some family => .closing t.position family.closing
  | none => { t with kind := .closeBracket }

@[simp] theorem Token.closer_kind (t : Token) : t.closer.kind = .closeBracket := by
  unfold closer
  split <;> rfl

@[simp] theorem Token.closer_family? (t : Token) : t.closer.family? = t.family? := by
  unfold closer
  split
  next family found =>
    rw [found]
    exact Family.ofChar?_closing family
  next => rfl

theorem Token.Lexed.closer (lexed : t.Lexed) (kind : t.kind = .openBracket) : t.closer.Lexed := by
  cases lexed with
  | number | text | closing => cases kind
  | operator position operator => exact absurd (.inl kind) (Kind.not_isBracket_of_ofOperator? operator)
  | @opening position glyph opening =>
    obtain ⟨family, rfl⟩ := Text.isOpening_iff.1 opening
    have family? : (Token.opening position family.opening).family? = some family :=
      family.ofChar?_opening
    have closer : (Token.opening position family.opening).closer =
        .closing position family.closing := by
      rw [Token.closer, family?]
      rfl
    rw [closer]
    exact .closing position (Text.isClosing_closing family)

end Formulae
