import Formulae.Expr.Typeset
import Formulae.Proofs.Derivative.Exact

/-!
# Moving brackets

The brackets of a sum or a difference behind a plus sign can be left out, as operators of this kind
are read from left to right.  `SumLaw` has the two laws, and `ChainLaw` also that of a product behind
a factor.  Trees are `EqualUpTo` such laws if the laws, applied anywhere and in both directions, lead
from one to the other.

Such trees have the same exact value, and where one is defined, the other is defined
(`EqualUpTo.real_eq`, `EqualUpTo.isDefined_iff`).
-/

namespace Formulae

/-! ## Laws -/

/-- The brackets of a sum or a difference move from behind a plus sign to the left. -/
inductive SumLaw : Expr → Expr → Prop where
  | plus (x y z : Expr) : SumLaw (.plus x (.plus y z)) (.plus (.plus x y) z)
  | minus (x y z : Expr) : SumLaw (.plus x (.minus y z)) (.minus (.plus x y) z)

/-- Also the brackets of a product move from behind a factor to the left. -/
inductive ChainLaw : Expr → Expr → Prop where
  | sum {a b : Expr} : SumLaw a b → ChainLaw a b
  | times (x y z : Expr) : ChainLaw (.times x (.times y z)) (.times (.times x y) z)

/-- The trees are equal up to a law, which may be applied anywhere and in both directions. -/
inductive EqualUpTo (law : Expr → Expr → Prop) : Expr → Expr → Prop where
  | law {a b : Expr} : law a b → EqualUpTo law a b
  | refl (a : Expr) : EqualUpTo law a a
  | symm {a b : Expr} : EqualUpTo law a b → EqualUpTo law b a
  | trans {a b c : Expr} : EqualUpTo law a b → EqualUpTo law b c → EqualUpTo law a c
  | binary (op : Operator) {l l' r r' : Expr} :
      EqualUpTo law l l' → EqualUpTo law r r' → EqualUpTo law (.binary op l r) (.binary op l' r')
  | apply (f : Function) {u u' : Expr} :
      EqualUpTo law u u' → EqualUpTo law (.apply f u) (.apply f u')

/-! ## Values -/

/-- The operator has a value at real numbers. -/
def Operator.HasValue : Operator → ℝ → ℝ → Prop
  | .plus, _, _ | .minus, _, _ | .times, _, _ => True
  | .divide, _, y => y ≠ 0
  | .power, x, y => 0 < x ∨ x = 0 ∧ 0 ≤ y ∨ x < 0 ∧ ∃ n : ℤ, y = n

/-- The function has a value at a real number. -/
def Function.HasValue : Function → ℝ → Prop
  | .sqrt, x => 0 ≤ x
  | .ln, x | .log, x => 0 < x
  | .asin, x | .acos, x => -1 ≤ x ∧ x ≤ 1
  | .acosh, x => 1 ≤ x
  | .atanh, x => -1 < x ∧ x < 1
  | .tan, x => Real.cos x ≠ 0
  | .cot, x => Real.sin x ≠ 0
  | .coth, x => x ≠ 0
  | .sin, _ | .sinh, _ | .asinh, _ | .cos, _ | .cosh, _ | .tanh, _ | .atan, _ | .acot, _ => True

/-- Every literal is finite, and every operator and every function has a value. -/
def Expr.IsDefined (r : String → ℝ) : Expr → Prop
  | .literal value => value.isFinite = true
  | .var _ | .constant _ => True
  | .binary op a b => a.IsDefined r ∧ b.IsDefined r ∧ op.HasValue (a.real r) (b.real r)
  | .apply f u => u.IsDefined r ∧ f.HasValue (u.real r)

section

variable {law : Expr → Expr → Prop} {a b : Expr} {r : String → ℝ}

theorem ChainLaw.real_eq (chain : ChainLaw a b) : a.real r = b.real r := by
  cases chain with
  | sum sum =>
    cases sum with
    | plus x y z => simp [add_assoc]
    | minus x y z => simp [add_sub_assoc]
  | times x y z => simp [mul_assoc]

theorem ChainLaw.isDefined_iff (chain : ChainLaw a b) : a.IsDefined r ↔ b.IsDefined r := by
  cases chain with
  | sum sum =>
    cases sum with
    | plus x y z => simp [Expr.IsDefined, Operator.HasValue, and_assoc]
    | minus x y z => simp [Expr.IsDefined, Operator.HasValue, and_assoc]
  | times x y z => simp [Expr.IsDefined, Operator.HasValue, and_assoc]

namespace EqualUpTo

/-- A weaker law relates more trees. -/
theorem mono {law' : Expr → Expr → Prop} (weaker : ∀ a b, law a b → law' a b)
    (equal : EqualUpTo law a b) : EqualUpTo law' a b := by
  induction equal with
  | law holds => exact .law (weaker _ _ holds)
  | refl a => exact .refl a
  | symm _ other => exact other.symm
  | trans _ _ first second => exact first.trans second
  | binary op _ _ left right => exact .binary op left right
  | apply f _ argument => exact .apply f argument

theorem real_eq (equal : EqualUpTo ChainLaw a b) : a.real r = b.real r := by
  induction equal with
  | law holds => exact holds.real_eq
  | refl a => rfl
  | symm _ other => exact other.symm
  | trans _ _ first second => exact first.trans second
  | binary op _ _ left right => rw [Expr.real, Expr.eval, ← Expr.real, ← Expr.real, left, right]; rfl
  | apply f _ argument => rw [Expr.real_apply, Expr.real_apply, argument]

theorem isDefined_iff (equal : EqualUpTo ChainLaw a b) : a.IsDefined r ↔ b.IsDefined r := by
  induction equal with
  | law holds => exact holds.isDefined_iff
  | refl a => rfl
  | symm _ other => exact other.symm
  | trans _ _ first second => exact first.trans second
  | binary op first second left right =>
    rw [Expr.IsDefined, Expr.IsDefined, left, right, first.real_eq, second.real_eq]
  | apply f inside argument =>
    rw [Expr.IsDefined, Expr.IsDefined, argument, inside.real_eq]

end EqualUpTo

end

end Formulae
