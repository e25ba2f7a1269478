import Formulae.Expr.Eval
import Formulae.Proofs.Canonical.RoundTrip
import Formulae.Proofs.Number.Equality

/-!
# The value of what is read back

Canonical text spells an undefined literal as `0 / 0`, an infinite one as `1 / 0` or `-1 / 0`, and
`cot` and `acot` by the formulas that they are computed from.  So a tree has the value of the tree
that its text is read as, bit by bit (`value_of_parse_canonical`).

The text of `coth` is another formula than the one that it is computed from, with roundings of its
own.  `writeOut` writes out everything else: it keeps the text (`canonical_writeOut`) and the value
(`eval_writeOut`), and without `coth` it gives the tree that is read back (`expand_eq_writeOut`).

The values are those in an arithmetic of floats in which the four basic operations are the nearest
floats to the exact results (`Arithmetic.IsRounded`).  Nothing is asked of powers and functions.
-/

namespace Formulae

/-! ## Arithmetics of floats -/

/-- Literals are floats, and sums, differences, products and quotients are those of floats. -/
structure Arithmetic.IsRounded (A : Arithmetic Float) : Prop where
  literal (x : Float) : A.literal x = x
  plus (x y : Float) : A.plus x y = x + y
  minus (x y : Float) : A.minus x y = x - y
  times (x y : Float) : A.times x y = x * y
  divide (x y : Float) : A.divide x y = x / y

theorem Arithmetic.isRounded_machine : machine.IsRounded := by
  constructor <;> intros <;> rfl

/-! ## Writing out -/

/-- An application as its text is read, but with `coth` kept. -/
def Function.writeOut (f : Function) (u : Expr) : Expr :=
  match f with
  | .coth => .apply .coth u
  | f => f.expand u

namespace Expr

/-- The tree that the canonical text is read as, but with `coth` kept. -/
def writeOut : Expr → Expr
  | literal value => expandLiteral value
  | var name => var name
  | constant c => constant c
  | binary op l r => binary op l.writeOut r.writeOut
  | apply f u => f.writeOut u.writeOut

/-- `coth` does not occur. -/
def IsFreeOfCoth : Expr → Prop
  | binary _ l r => l.IsFreeOfCoth ∧ r.IsFreeOfCoth
  | apply f u => f ≠ .coth ∧ u.IsFreeOfCoth
  | _ => True

theorem expand_eq_writeOut {e : Expr} (free : e.IsFreeOfCoth) : e.expand = e.writeOut := by
  induction e with
  | literal | var | constant => rfl
  | binary op l r left right => rw [expand, writeOut, left free.1, right free.2]
  | apply f u argument =>
    rw [expand, writeOut, argument free.2]
    cases f with
    | coth => exact absurd rfl free.1
    | _ => rfl

/-! ## Texts -/

theorem canonical_digits :
    zero.canonical = "0" ∧ one.canonical = "1" ∧ two.canonical = "2" ∧
      negativeOne.canonical = "-1" := by
  decide +kernel

theorem canonical_binary (op : Operator) (l r : Expr) :
    (binary op l r).canonical =
      "(" ++ l.canonical ++ " " ++ op.glyph.toString ++ " " ++ r.canonical ++ ")" :=
  rfl

theorem canonical_apply (f : Function) (u : Expr) :
    (apply f u).canonical = f.canonical u.canonical :=
  rfl

theorem canonical_expandLiteral (value : Float) :
    (expandLiteral value).canonical = canonicalLiteral value := by
  obtain ⟨zeroText, oneText, -, negativeText⟩ := canonical_digits
  have finite (notNaN : ¬ value.isNaN) (notInf : ¬ value.isInf) :
      (literal value).canonical = Decimal.plain value := by
    rw [canonical, canonicalWith, canonicalLiteral, if_neg notNaN, if_neg notInf]
  unfold expandLiteral canonicalLiteral
  split
  next => rw [canonical_binary, zeroText]; rfl
  next notNaN =>
    split
    next =>
      split
      next => rw [canonical_binary, zeroText, negativeText]; rfl
      next => rw [canonical_binary, zeroText, oneText]; rfl
    next notInf => exact finite notNaN notInf

end Expr

theorem Function.canonical_writeOut (f : Function) (u : Expr) :
    (f.writeOut u).canonical = f.canonical u.canonical := by
  obtain ⟨-, oneText, twoText, -⟩ := Expr.canonical_digits
  cases f with
  | cot =>
    change (Expr.divide .one (.apply .tan u)).canonical = "(1 / tan(" ++ u.canonical ++ "))"
    rw [Expr.canonical_binary, Expr.canonical_apply, oneText,
      canonical_eq (by decide) (by decide) (by decide)]
    simp [name, Operator.glyph, ← String.toList_inj]
  | acot =>
    change (Expr.minus (.divide (.constant .pi) .two) (.apply .atan u)).canonical =
      "((PI / 2) - atan(" ++ u.canonical ++ "))"
    rw [Expr.canonical_binary, Expr.canonical_binary, Expr.canonical_apply, twoText,
      canonical_eq (by decide) (by decide) (by decide)]
    simp [name, Operator.glyph, ← String.toList_inj, Expr.canonical, Expr.canonicalWith,
      Constant.name]
  | _ => rfl

/-- Writing out does not change the text. -/
theorem Expr.canonical_writeOut (e : Expr) : e.writeOut.canonical = e.canonical := by
  induction e with
  | literal value => exact canonical_expandLiteral value
  | var | constant => rfl
  | binary op l r left right => rw [writeOut, canonical_binary, canonical_binary, left, right]
  | apply f u argument =>
    rw [writeOut, Function.canonical_writeOut, argument]
    rfl

/-! ## Values -/

section

variable {A : Arithmetic Float} {valueOf : String → Float}

theorem Arithmetic.IsRounded.eval_expandLiteral (rounded : A.IsRounded) (value : Float) :
    (expandLiteral value).eval A valueOf = value := by
  unfold expandLiteral
  split
  next undefined =>
    simp only [Expr.eval, Arithmetic.combine, Expr.zero, rounded.literal, rounded.divide]
    exact (Number.eq_of_isNaN undefined).symm
  next =>
    split
    next infinite =>
      have quotient := Number.eq_of_isInf infinite
      split
      next negative =>
        rw [if_pos negative] at quotient
        simpa [Expr.eval, Arithmetic.combine, Expr.negativeOne, Expr.zero, rounded.literal,
          rounded.divide] using quotient.symm
      next positive =>
        rw [if_neg positive] at quotient
        simpa [Expr.eval, Arithmetic.combine, Expr.one, Expr.zero, rounded.literal,
          rounded.divide] using quotient.symm
    next => exact rounded.literal value

/-- A function is written out by the formula that it is computed from. -/
theorem Function.eval_writeOut (f : Function) (u : Expr) :
    (f.writeOut u).eval A valueOf = A.apply f (u.eval A valueOf) := by
  cases f with
  | _ => rfl

/-- Writing out does not change the value. -/
theorem Expr.eval_writeOut (rounded : A.IsRounded) (e : Expr) :
    e.writeOut.eval A valueOf = e.eval A valueOf := by
  induction e with
  | literal value =>
    rw [writeOut, rounded.eval_expandLiteral, eval, rounded.literal]
  | var | constant => rfl
  | binary op l r left right => rw [writeOut, eval, eval, left, right]
  | apply f u argument => rw [writeOut, Function.eval_writeOut, argument, eval]

end

/-! ## Reading back -/

namespace Expr

variable {e e' : Expr}

/-- What is read back from a canonical text is the expanded tree. -/
theorem eq_expand_of_parse_canonical (named : e.Named) (accepted : parse e.canonical = .ok e') :
    e' = e.expand := by
  rcases Nat.lt_or_ge 512 e.cost with deep | enough
  · obtain ⟨position, refused⟩ := (parse_canonical_within named).lacking deep
    rw [accepted] at refused
    cases refused
  · have read := (parse_canonical_iff named).2 enough
    rw [accepted] at read
    cases read
    rfl

theorem parse_canonical_eq_ok_iff (named : e.Named) :
    parse e.canonical = .ok e' ↔ e.cost ≤ 512 ∧ e' = e.expand := by
  constructor
  · intro accepted
    obtain rfl := eq_expand_of_parse_canonical named accepted
    exact ⟨(parse_canonical_iff named).1 accepted, rfl⟩
  · rintro ⟨enough, rfl⟩
    exact (parse_canonical_iff named).2 enough

/-- A tree without `coth` has the value of the tree that its canonical text is read as. -/
theorem value_of_parse_canonical (named : e.Named) (free : e.IsFreeOfCoth)
    (accepted : parse e.canonical = .ok e') (b : Bindings) : e'.value b = e.value b := by
  rw [eq_expand_of_parse_canonical named accepted, expand_eq_writeOut free]
  exact eval_writeOut Arithmetic.isRounded_machine e

/-- An infinite literal, a negative zero, `cot` and `acot` in one tree. -/
theorem value_of_parse_canonical_cot_minus_acot :
    let e := minus (apply .cot (times (literal (-0)) (var "x"))) (apply .acot (literal (1 / 0)))
    let b := Bindings.empty.insert "x" 2
    e.Named ∧ e.IsFreeOfCoth ∧ parse e.canonical = .ok e.expand ∧ e.expand.value b = e.value b := by
  intro e b
  have named : e.Named := by decide
  have free : e.IsFreeOfCoth := by simp [e, IsFreeOfCoth]
  have accepted : parse e.canonical = .ok e.expand :=
    (parse_canonical_iff named).2 (by decide)
  exact ⟨named, free, accepted, value_of_parse_canonical named free accepted b⟩

end Expr

end Formulae
