import Formulae.Expr.Reduce
import Formulae.Expr.Variables
import Formulae.Proofs.Canonical.Reparse
import Formulae.Proofs.Number.Equality

/-!
# The laws of reduction

`reduce` works from the leaves to the root, and all that it does at one operation is `reduceRoot`.
`Law` lists what this can be, one constructor for each law with the condition under which it
applies, and `law_reduceRoot` says that it is nothing else.  So a property of reduced trees needs a
case for each law and an induction over the tree that asks for no more than the cases.

The order of the laws does not matter for any of these properties, and `Law` does not keep it.

Two properties follow at once: reduction brings in no variable (`occurrences_reduce`), and no
infinite or undefined literal and none of `cot`, `coth` and `acot` (`IsPlain.reduce`).
-/

namespace Formulae.Expr

open Formulae.Number

/-- An operation on reduced operands, reduced. -/
def reduceRoot (A : Arithmetic Float) (op : Operator) (l r : Expr) : Expr :=
  (folded? A op l r).getD (applyLaw op l r)

section

variable {A : Arithmetic Float} {op : Operator} {e l r u : Expr}

@[simp] theorem reduce_binary :
    (binary op l r).reduce A = reduceRoot A op (l.reduce A) (r.reduce A) :=
  rfl

@[simp] theorem reduce_apply (f : Function) : (apply f u).reduce A = apply f (u.reduce A) := rfl

/-! ## One operation -/

variable (A) in
/-- What an operation on reduced operands becomes. -/
inductive Law : Operator → Expr → Expr → Expr → Prop where
  /-- Two literals become their result. -/
  | folded {op : Operator} {x y : Float} :
      (A.combine op x y).isFinite = true →
      Law op (literal x) (literal y) (literal (A.combine op x y))
  | plus_zero {l r : Expr} : r.isLiteral 0 = true → Law .plus l r l
  | zero_plus {l r : Expr} : l.isLiteral 0 = true → Law .plus l r r
  | minus_zero {l r : Expr} : r.isLiteral 0 = true → Law .minus l r l
  | zero_minus {l r : Expr} : l.isLiteral 0 = true → Law .minus l r r.negateReduced
  | minus_self {l r : Expr} : l.sameAs r = true → Law .minus l r zero
  | zero_times {l r : Expr} : l.isLiteral 0 = true → Law .times l r zero
  | times_zero {l r : Expr} : r.isLiteral 0 = true → Law .times l r zero
  | one_times {l r : Expr} : l.isLiteral 1 = true → Law .times l r r
  | times_one {l r : Expr} : r.isLiteral 1 = true → Law .times l r l
  | negativeOne_times {l r : Expr} : l.isLiteral (-1) = true → Law .times l r r.negateReduced
  | times_negativeOne {l r : Expr} : r.isLiteral (-1) = true → Law .times l r l.negateReduced
  | zero_divide {l r : Expr} :
      l.isLiteral 0 = true → r.isNumber = false → Law .divide l r zero
  | divide_one {l r : Expr} : r.isLiteral 1 = true → Law .divide l r l
  | power_zero {l r : Expr} : r.isLiteral 0 = true → Law .power l r one
  | one_power {l r : Expr} : l.isLiteral 1 = true → Law .power l r one
  | power_one {l r : Expr} : r.isLiteral 1 = true → Law .power l r l
  /-- No law applies. -/
  | kept {op : Operator} {l r : Expr} :
      reduceRoot A op l r = binary op l r → Law op l r (binary op l r)

theorem law_folded? (found : folded? A op l r = some e) : Law A op l r e := by
  unfold folded? at found
  split at found
  next x y =>
    dsimp only at found
    split at found
    next finite =>
      cases found
      exact .folded finite
    next => cases found
  next => cases found

theorem law_ite {condition : Bool} {e e' : Expr} (fits : condition = true → Law A op l r e)
    (others : condition = false → Law A op l r e') :
    Law A op l r (if condition = true then e else e') := by
  cases condition with
  | true => exact fits rfl
  | false => exact others rfl

theorem law_applyLaw (unfolded : folded? A op l r = none) : Law A op l r (applyLaw op l r) := by
  have kept (none : applyLaw op l r = binary op l r) : Law A op l r (binary op l r) := by
    refine .kept ?_
    rw [reduceRoot, unfolded, Option.getD_none, none]
  -- The conditions that fail on the way to `kept` leave the operation as it is.
  cases op with
  | plus =>
    refine law_ite .plus_zero fun right => law_ite .zero_plus fun left => kept ?_
    simp [applyLaw, right, left]
  | minus =>
    refine law_ite .minus_zero fun right => law_ite .zero_minus fun left =>
      law_ite .minus_self fun different => kept ?_
    simp [applyLaw, right, left, different]
  | times =>
    refine law_ite (fun zero => (Bool.or_eq_true_iff.1 zero).elim .zero_times .times_zero)
      fun nonzero => law_ite .one_times fun left => law_ite .times_one fun right =>
        law_ite .negativeOne_times fun left' => law_ite .times_negativeOne fun right' => kept ?_
    simp [applyLaw, nonzero, left, right, left', right']
  | divide =>
    refine law_ite (fun zero => ?_) fun nonzero => law_ite .divide_one fun right => kept ?_
    · obtain ⟨left, right⟩ := Bool.and_eq_true_iff.1 zero
      exact .zero_divide left (by simpa using right)
    · simp [applyLaw, nonzero, right]
  | power =>
    refine law_ite (fun one => (Bool.or_eq_true_iff.1 one).elim .power_zero .one_power)
      fun several => law_ite .power_one fun right => kept ?_
    simp [applyLaw, several, right]

/-- An operation is reduced by one of the laws. -/
theorem law_reduceRoot (A : Arithmetic Float) (op : Operator) (l r : Expr) :
    Law A op l r (reduceRoot A op l r) := by
  unfold reduceRoot
  cases found : folded? A op l r with
  | some e => exact law_folded? found
  | none => exact law_applyLaw found

/-! ## Negatives -/

theorem isLiteral_iff {number : Float} :
    u.isLiteral number = true ↔ ∃ x, u = literal x ∧ (x == number) = true := by
  cases u with
  | literal x => simp [isLiteral]
  | var | constant | binary | apply => simp [isLiteral]

/-- What is no number is not taken for a literal. -/
theorem isLiteral_of_isNumber (notNumber : u.isNumber = false) (number : Float) :
    u.isLiteral number = false := by
  cases u with
  | literal => cases notNumber
  | var | constant | binary | apply => rfl

/-- Only two numbers are replaced by their result. -/
theorem folded?_of_isNumber (notNumber : r.isNumber = false) : folded? A op l r = none := by
  cases r with
  | literal => cases notNumber
  | var | constant | binary | apply => cases l <;> rfl

/-- A negative is what a factor `-1` stood before, or it is negated as a whole. -/
theorem negateReduced_cases (u : Expr) :
    (∃ l r, u = times l r ∧ l.isLiteral (-1) = true ∧ u.negateReduced = r) ∨
      u.negateReduced = u.negate := by
  fun_cases negateReduced u with
  | case1 l r factor => exact .inl ⟨l, r, rfl, factor, rfl⟩
  | case2 => exact .inr rfl
  | case3 => exact .inr rfl

theorem occurrences_negateReduced (u : Expr) : u.negateReduced.occurrences = u.occurrences := by
  rcases negateReduced_cases u with ⟨l, r, rfl, factor, negative⟩ | negative
  · obtain ⟨x, rfl, -⟩ := isLiteral_iff.1 factor
    simp [negative, occurrences]
  · rw [negative, occurrences_negate]

theorem IsPlain.negate (plain : u.IsPlain) : u.negate.IsPlain := by
  cases u with
  | literal x => exact (isFinite_neg x).trans plain
  | var | constant | binary | apply => exact ⟨isFinite_negativeOne, plain⟩

theorem IsPlain.negateReduced (plain : u.IsPlain) : u.negateReduced.IsPlain := by
  rcases negateReduced_cases u with ⟨l, r, rfl, -, negative⟩ | negative
  · rw [negative]
    exact plain.2
  · rw [negative]
    exact plain.negate

/-! ## What reduction brings in -/

theorem Law.occurrences_subset (law : Law A op l r e) :
    e.occurrences ⊆ l.occurrences ++ r.occurrences := by
  cases law with
  | folded | minus_self | zero_times | times_zero | zero_divide | power_zero | one_power =>
    exact List.nil_subset _
  | plus_zero | minus_zero | times_one | divide_one | power_one =>
    exact List.subset_append_left _ _
  | zero_plus | one_times => exact List.subset_append_right _ _
  | zero_minus | negativeOne_times =>
    rw [occurrences_negateReduced]
    exact List.subset_append_right _ _
  | times_negativeOne =>
    rw [occurrences_negateReduced]
    exact List.subset_append_left _ _
  | kept => exact List.Subset.refl _

theorem occurrences_reduce (A : Arithmetic Float) (e : Expr) :
    (e.reduce A).occurrences ⊆ e.occurrences := by
  induction e with
  | literal | var | constant => exact List.Subset.refl _
  | binary op l r left right =>
    intro name occurs
    have operands := (law_reduceRoot A op (l.reduce A) (r.reduce A)).occurrences_subset occurs
    exact (List.mem_append.1 operands).elim (fun inLeft => List.mem_append_left _ (left inLeft))
      fun inRight => List.mem_append_right _ (right inRight)
  | apply f u argument => exact argument

theorem Named.reduce (named : e.Named) (A : Arithmetic Float) : (e.reduce A).Named :=
  fun name occurs => named name (occurrences_reduce A e occurs)

theorem Law.isPlain (law : Law A op l r e) (left : l.IsPlain) (right : r.IsPlain) :
    e.IsPlain := by
  cases law with
  | folded finite => exact finite
  | minus_self | zero_times | times_zero | zero_divide => exact isFinite_zero
  | power_zero | one_power => exact isFinite_one
  | plus_zero | minus_zero | times_one | divide_one | power_one => exact left
  | zero_plus | one_times => exact right
  | zero_minus | negativeOne_times => exact right.negateReduced
  | times_negativeOne => exact left.negateReduced
  | kept => exact ⟨left, right⟩

theorem IsPlain.reduce (plain : e.IsPlain) : (e.reduce A).IsPlain := by
  induction e with
  | literal | var | constant => exact plain
  | binary op l r left right =>
    exact (law_reduceRoot A op _ _).isPlain (left plain.1) (right plain.2)
  | apply f u argument =>
    obtain ⟨notCot, notCoth, notAcot, plainArgument⟩ := plain
    exact ⟨notCot, notCoth, notAcot, argument plainArgument⟩

end

end Formulae.Expr
