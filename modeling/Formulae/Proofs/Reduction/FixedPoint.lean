import Formulae.Proofs.Canonical.Value
import Formulae.Proofs.Reduction.Laws
import Formulae.Simplifier

/-!
# The fixed point of reduction

A tree is reduced if no law applies at any of its operations (`IsReduced`).  Every law gives a
reduced tree when its operands are reduced (`Law.isReduced`), so `reduce` ends with one, and a
reduced tree does not change (`reduce_reduce`).

The algebraic simplifier reads a text, reduces and writes a text, which is read once more.  The tree
that is read first is the expanded one.  It is plain, with all literals finite and without `cot`,
`coth` and `acot`, and so is the reduced tree, which is therefore read back as it is.  Reading fails
only on texts that nest too many levels, so the answer is known
(`simplify_algebraic_eq_ok_iff`), and the answer is its own answer (`simplify_algebraic_answer`).
-/

namespace Formulae

open Formulae.Number

namespace Expr

section

variable {A : Arithmetic Float} {op : Operator} {e l r u : Expr}

/-! ## Reduced trees -/

variable (A) in
/-- No law applies at any operation. -/
def IsReduced : Expr → Prop
  | binary op l r => l.IsReduced ∧ r.IsReduced ∧ reduceRoot A op l r = binary op l r
  | apply _ u => u.IsReduced
  | _ => True

/-- A factor `-1` is taken in as a sign. -/
theorem reduceRoot_negativeOne (notNumber : u.isNumber = false) :
    reduceRoot A .times negativeOne u = u.negateReduced := by
  have notZero : negativeOne.isLiteral 0 = false := by decide
  have notOne : negativeOne.isLiteral 1 = false := by decide
  have isNegativeOne : negativeOne.isLiteral (-1) = true := by decide
  rw [reduceRoot, folded?_of_isNumber notNumber]
  simp [applyLaw, isLiteral_of_isNumber notNumber, notZero, notOne, isNegativeOne]

theorem IsReduced.negateReduced (reduced : u.IsReduced A) : u.negateReduced.IsReduced A := by
  rcases negateReduced_cases u with ⟨l, r, rfl, -, negative⟩ | negative
  · rw [negative]
    exact reduced.2.1
  · rw [negative]
    cases u with
    | literal x => trivial
    | var | constant | binary | apply =>
      refine ⟨trivial, reduced, ?_⟩
      rw [reduceRoot_negativeOne rfl, negative]
      rfl

theorem Law.isReduced (law : Law A op l r e) (left : l.IsReduced A) (right : r.IsReduced A) :
    e.IsReduced A := by
  cases law with
  | folded | minus_self | zero_times | times_zero | zero_divide | power_zero | one_power => trivial
  | plus_zero | minus_zero | times_one | divide_one | power_one => exact left
  | zero_plus | one_times => exact right
  | zero_minus | negativeOne_times => exact right.negateReduced
  | times_negativeOne => exact left.negateReduced
  | kept unchanged => exact ⟨left, right, unchanged⟩

theorem isReduced_reduce (A : Arithmetic Float) (e : Expr) : (e.reduce A).IsReduced A := by
  induction e with
  | literal | var | constant => trivial
  | binary op l r left right => exact (law_reduceRoot A op _ _).isReduced left right
  | apply f u argument => exact argument

theorem IsReduced.reduce_eq (reduced : e.IsReduced A) : e.reduce A = e := by
  induction e with
  | literal | var | constant => rfl
  | binary op l r left right =>
    obtain ⟨leftReduced, rightReduced, unchanged⟩ := reduced
    rw [reduce_binary, left leftReduced, right rightReduced, unchanged]
  | apply f u argument => rw [reduce_apply, argument reduced]

/-- Reducing twice is reducing once. -/
theorem reduce_reduce (A : Arithmetic Float) (e : Expr) : (e.reduce A).reduce A = e.reduce A :=
  (isReduced_reduce A e).reduce_eq

end

/-! ## Expanded trees -/

theorem isPlain_expandLiteral (value : Float) : (expandLiteral value).IsPlain := by
  unfold expandLiteral
  split
  next => exact ⟨isFinite_zero, isFinite_zero⟩
  next defined =>
    split
    next =>
      split
      next => exact ⟨isFinite_negativeOne, isFinite_zero⟩
      next => exact ⟨isFinite_one, isFinite_zero⟩
    next bounded => exact isFinite_of_not defined bounded

end Expr

theorem Function.isPlain_expand (f : Function) {u : Expr} (argument : u.IsPlain) :
    (f.expand u).IsPlain := by
  have applied {g : Function} (notCot : g ≠ .cot) (notCoth : g ≠ .coth) (notAcot : g ≠ .acot) :
      (Expr.apply g u).IsPlain := ⟨notCot, notCoth, notAcot, argument⟩
  have exponential : (Expr.power (.constant .euler) (.times .two u)).IsPlain :=
    ⟨trivial, isFinite_two, argument⟩
  cases f with
  | cot => exact ⟨isFinite_one, applied (by decide) (by decide) (by decide)⟩
  | coth => exact ⟨⟨exponential, isFinite_one⟩, exponential, isFinite_one⟩
  | acot => exact ⟨⟨trivial, isFinite_two⟩, applied (by decide) (by decide) (by decide)⟩
  | _ => exact applied (by decide) (by decide) (by decide)

theorem Function.occurrences_expand (f : Function) (u : Expr) :
    (f.expand u).occurrences ⊆ u.occurrences := by
  cases f <;> simp [expand, Expr.occurrences, Expr.one, Expr.two]

namespace Expr

variable {e s : Expr}

/-- Literals are written out as finite ones, and three functions as others. -/
theorem isPlain_expand (e : Expr) : e.expand.IsPlain := by
  induction e with
  | literal value => exact isPlain_expandLiteral value
  | var | constant => trivial
  | binary op l r left right => exact ⟨left, right⟩
  | apply f u argument => exact f.isPlain_expand argument

theorem occurrences_expandLiteral (value : Float) : (expandLiteral value).occurrences = [] := by
  unfold expandLiteral
  split
  next => rfl
  next =>
    split
    next => split <;> rfl
    next => rfl

theorem occurrences_expand (e : Expr) : e.expand.occurrences ⊆ e.occurrences := by
  induction e with
  | literal value =>
    rw [expand, occurrences_expandLiteral]
    exact List.nil_subset _
  | var | constant => exact List.Subset.refl _
  | binary op l r left right =>
    intro name occurs
    rcases List.mem_append.1 occurs with inLeft | inRight
    · exact List.mem_append_left _ (left inLeft)
    · exact List.mem_append_right _ (right inRight)
  | apply f u argument => exact List.Subset.trans (f.occurrences_expand _) argument

theorem Named.expand (named : e.Named) : e.expand.Named :=
  fun name occurs => named name (occurrences_expand e occurs)

end Expr

/-! ## The simplifier -/

theorem Simplifier.algebraic_eq_ok_iff {text answer : String} :
    algebraic.answer text = .ok answer ↔
      ∃ e, parse text = .ok e ∧ answer = (e.reduce .machine).canonical := by
  unfold algebraic
  dsimp only
  cases parse text with
  | error cause => simp
  | ok e => simp [eq_comm]

namespace Expr

variable {e s : Expr}

theorem simplify_eq_ok_iff {simplifier : Simplifier} :
    e.simplify simplifier = .ok s ↔
      ∃ text, simplifier.answer e.canonical = .ok text ∧ parse text = .ok s := by
  unfold simplify
  cases simplifier.answer e.canonical with
  | error detail => simp
  | ok text => cases read : parse text <;> simp [read]

/-- The answer of the algebraic simplifier is the reduced tree, if both texts can be read. -/
theorem simplify_algebraic_eq_ok_iff (named : e.Named) :
    e.simplify .algebraic = .ok s ↔
      e.cost ≤ 512 ∧ (e.expand.reduce .machine).cost ≤ 512 ∧ s = e.expand.reduce .machine := by
  have plain : (e.expand.reduce .machine).IsPlain := (isPlain_expand e).reduce
  have answer : parse (e.expand.reduce .machine).canonical = .ok s ↔
      (e.expand.reduce .machine).cost ≤ 512 ∧ s = e.expand.reduce .machine := by
    rw [parse_canonical_eq_ok_iff (named.expand.reduce .machine), plain.expand_eq]
  rw [simplify_eq_ok_iff]
  constructor
  · rintro ⟨text, answered, accepted⟩
    obtain ⟨e', read, rfl⟩ := Simplifier.algebraic_eq_ok_iff.1 answered
    obtain ⟨enough, rfl⟩ := (parse_canonical_eq_ok_iff named).1 read
    exact ⟨enough, answer.1 accepted⟩
  · rintro ⟨enough, accepted⟩
    have read := (parse_canonical_eq_ok_iff named).2 ⟨enough, rfl⟩
    exact ⟨_, Simplifier.algebraic_eq_ok_iff.2 ⟨_, read, rfl⟩, answer.2 accepted⟩

/-- The answer of the algebraic simplifier is the reduced tree, and it is its own answer. -/
theorem simplify_algebraic_answer (named : e.Named) (answered : e.simplify .algebraic = .ok s) :
    s = e.expand.reduce .machine ∧ s.simplify .algebraic = .ok s := by
  obtain ⟨-, enough, rfl⟩ := (simplify_algebraic_eq_ok_iff named).1 answered
  have plain : (e.expand.reduce .machine).IsPlain := (isPlain_expand e).reduce
  refine ⟨rfl, (simplify_algebraic_eq_ok_iff (named.expand.reduce .machine)).2 ?_⟩
  rw [plain.expand_eq, reduce_reduce]
  exact ⟨enough, enough, rfl⟩

/-- A product with an infinite literal, which is written out, and a cotangent times one. -/
theorem simplify_algebraic_answer_cot :
    let e := minus (times one (apply .cot (var "x"))) (times (literal (1 / 0)) (var "y"))
    let s := minus (divide one (apply .tan (var "x"))) (times (divide one zero) (var "y"))
    e.Named ∧ e.simplify .algebraic = .ok s ∧
      s = e.expand.reduce .machine ∧ s.simplify .algebraic = .ok s := by
  intro e s
  have named : e.Named := by decide
  have reduced : s = e.expand.reduce .machine := by decide +kernel
  have answered : e.simplify .algebraic = .ok s :=
    (simplify_algebraic_eq_ok_iff named).2 ⟨by decide +kernel, by decide +kernel, reduced⟩
  exact ⟨named, answered, simplify_algebraic_answer named answered⟩

end Expr

end Formulae
