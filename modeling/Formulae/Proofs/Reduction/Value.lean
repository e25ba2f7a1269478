import Formulae.Proofs.Canonical.Unique
import Formulae.Proofs.Number.Laws
import Formulae.Proofs.Reduction.Laws

/-!
# The value of a reduced tree

Where every part of a tree has a finite value, the reduced tree has the value of the tree, up to
the sign of zero (`eval_reduce_beq`).

The sign of zero does change: `x + 0` is `x`, but `-0 + 0` is `0`.  What comes above such a zero
must not tell the two apart as long as its own value is finite.  The four basic operations do not,
and powers and functions are required not to (`Arithmetic.IgnoresZeroSigns`).  Three laws of powers
are required as well (`Arithmetic.HasUnitPowers`).  These are promises of the library that computes
powers and functions, so the arithmetic is a parameter.  `machine` is one of those that it may be
(`Arithmetic.isRounded_machine`).

Each law has a case of its own (`Law.sameNumber_eval`): a literal operand is replaced by its number,
and a law of floats does the rest.  The law `x - x = 0` compares texts, and trees with the same text
have the same value because canonical text can be read in one way only (`eval_eq_of_sameAs`).
-/

namespace Formulae

open Formulae.Number

/-! ## Powers and functions -/

/-- Powers with exponent zero or one, and powers of one. -/
structure Arithmetic.HasUnitPowers (A : Arithmetic Float) : Prop where
  power_zero (x : Float) : A.power x 0 = 1
  one_power (x : Float) : A.power 1 x = 1
  power_one (x : Float) : A.power x 1 = x

/-- Operands that compare equal have results that compare equal, where these are finite. -/
structure Arithmetic.IgnoresZeroSigns (A : Arithmetic Float) : Prop where
  power {x x' y y' : Float} : (x == x') = true → (y == y') = true →
    (A.power x y).isFinite = true → (A.power x y == A.power x' y') = true
  apply (f : Function) {x x' : Float} : (x == x') = true →
    (A.apply f x).isFinite = true → (A.apply f x == A.apply f x') = true

namespace Expr

/-- The tree with all trees in it. -/
def subtrees : Expr → List Expr
  | binary op l r => binary op l r :: (l.subtrees ++ r.subtrees)
  | apply f u => apply f u :: u.subtrees
  | leaf => [leaf]

theorem mem_subtrees (e : Expr) : e ∈ e.subtrees := by
  cases e with
  | literal | var | constant | binary | apply => simp [subtrees]

variable {A : Arithmetic Float} {valueOf : String → Float} {op : Operator} {e l r u : Expr}

/-- The same numbers have the same result, if it is finite. -/
theorem sameNumber_combine (rounded : A.IsRounded) (signs : A.IgnoresZeroSigns) (op : Operator)
    {x x' y y' : Float} (first : SameNumber x x') (second : SameNumber y y')
    (finiteFirst : x.isFinite = true) (finiteSecond : y.isFinite = true)
    (finite : (A.combine op x y).isFinite = true) :
    SameNumber (A.combine op x y) (A.combine op x' y') := by
  cases op with
  | plus =>
    simp only [Arithmetic.combine, rounded.plus]
    exact first.add second
  | minus =>
    simp only [Arithmetic.combine, rounded.minus]
    exact first.sub second
  | times =>
    simp only [Arithmetic.combine, rounded.times]
    exact first.mul second
  | divide =>
    simp only [Arithmetic.combine, rounded.divide] at finite ⊢
    exact first.div second finite
  | power =>
    exact sameNumber_of_beq
      (signs.power (first.beq finiteFirst) (second.beq finiteSecond) finite)

/-! ## One operation -/

theorem sameNumber_eval_of_isLiteral (rounded : A.IsRounded) {number : Float}
    (literal : u.isLiteral number = true) : SameNumber (u.eval A valueOf) number := by
  obtain ⟨x, rfl, same⟩ := isLiteral_iff.1 literal
  rw [eval, rounded.literal]
  exact sameNumber_of_beq same

theorem eval_negate (rounded : A.IsRounded) (u : Expr) :
    u.negate.eval A valueOf = -(u.eval A valueOf) := by
  cases u with
  | literal x => simp only [negate, eval, rounded.literal]
  | var | constant | binary | apply =>
    simp only [negate, negativeOne, eval, Arithmetic.combine, rounded.literal, rounded.times]
    rw [Number.mul_comm, mul_negativeOne]

theorem eval_negateReduced (rounded : A.IsRounded) (u : Expr) :
    u.negateReduced.eval A valueOf = -(u.eval A valueOf) := by
  rcases negateReduced_cases u with ⟨l, r, rfl, factor, negative⟩ | negative
  · obtain ⟨x, rfl, same⟩ := isLiteral_iff.1 factor
    obtain rfl := eq_negativeOne_of_beq same
    simp only [negative, eval, Arithmetic.combine, rounded.literal, rounded.times]
    rw [Number.mul_comm, mul_negativeOne, Number.neg_neg]
  · rw [negative, eval_negate rounded]

/-- A law keeps the value of the operation, if it is finite. -/
theorem Law.sameNumber_eval (law : Law A op l r e) (rounded : A.IsRounded)
    (powers : A.HasUnitPowers) (signs : A.IgnoresZeroSigns) (lettered : l.Lettered)
    (lettered' : r.Lettered) (finiteLeft : (l.eval A valueOf).isFinite = true)
    (finiteRight : (r.eval A valueOf).isFinite = true)
    (finite : ((binary op l r).eval A valueOf).isFinite = true) :
    SameNumber ((binary op l r).eval A valueOf) (e.eval A valueOf) := by
  have leftNumber {number : Float} (literal : l.isLiteral number = true) :
      SameNumber ((binary op l r).eval A valueOf) (A.combine op number (r.eval A valueOf)) :=
    sameNumber_combine rounded signs op (sameNumber_eval_of_isLiteral rounded literal) (.refl _)
      finiteLeft finiteRight finite
  have rightNumber {number : Float} (literal : r.isLiteral number = true) :
      SameNumber ((binary op l r).eval A valueOf) (A.combine op (l.eval A valueOf) number) :=
    sameNumber_combine rounded signs op (.refl _) (sameNumber_eval_of_isLiteral rounded literal)
      finiteLeft finiteRight finite
  have zeroValue : zero.eval A valueOf = 0 := rounded.literal 0
  have oneValue : one.eval A valueOf = 1 := rounded.literal 1
  cases law with
  | @folded x y =>
    simp only [eval, rounded.literal]
    exact .refl _
  | plus_zero right =>
    refine (rightNumber right).trans ?_
    rw [Arithmetic.combine, rounded.plus]
    exact sameNumber_add_zero _
  | zero_plus left =>
    refine (leftNumber left).trans ?_
    rw [Arithmetic.combine, rounded.plus]
    exact sameNumber_zero_add _
  | minus_zero right =>
    refine (rightNumber right).trans ?_
    rw [Arithmetic.combine, rounded.minus]
    exact sameNumber_sub_zero _
  | zero_minus left =>
    refine (leftNumber left).trans ?_
    rw [Arithmetic.combine, rounded.minus, eval_negateReduced rounded]
    exact sameNumber_zero_sub _
  | minus_self same =>
    rw [eval, Arithmetic.combine, rounded.minus, zeroValue,
      ← eval_eq_of_sameAs rounded lettered lettered' same]
    exact sameNumber_sub_self finiteLeft
  | zero_times left =>
    refine (leftNumber left).trans ?_
    rw [Arithmetic.combine, rounded.times, zeroValue, Number.mul_comm]
    exact sameNumber_mul_zero finiteRight
  | times_zero right =>
    refine (rightNumber right).trans ?_
    rw [Arithmetic.combine, rounded.times, zeroValue]
    exact sameNumber_mul_zero finiteLeft
  | one_times left =>
    refine (leftNumber left).trans ?_
    rw [Arithmetic.combine, rounded.times, Number.mul_comm, Number.mul_one]
    exact .refl _
  | times_one right =>
    refine (rightNumber right).trans ?_
    rw [Arithmetic.combine, rounded.times, Number.mul_one]
    exact .refl _
  | negativeOne_times left =>
    refine (leftNumber left).trans ?_
    rw [Arithmetic.combine, rounded.times, Number.mul_comm, mul_negativeOne,
      eval_negateReduced rounded]
    exact .refl _
  | times_negativeOne right =>
    refine (rightNumber right).trans ?_
    rw [Arithmetic.combine, rounded.times, mul_negativeOne, eval_negateReduced rounded]
    exact .refl _
  | zero_divide left =>
    have quotient := leftNumber left
    rw [quotient.isFinite_eq, Arithmetic.combine, rounded.divide] at finite
    refine quotient.trans ?_
    rw [Arithmetic.combine, rounded.divide, zeroValue]
    exact sameNumber_zero_div finite
  | divide_one right =>
    refine (rightNumber right).trans ?_
    rw [Arithmetic.combine, rounded.divide, Number.div_one]
    exact .refl _
  | power_zero right =>
    refine (rightNumber right).trans ?_
    rw [Arithmetic.combine, powers.power_zero, oneValue]
    exact .refl _
  | one_power left =>
    refine (leftNumber left).trans ?_
    rw [Arithmetic.combine, powers.one_power, oneValue]
    exact .refl _
  | power_one right =>
    refine (rightNumber right).trans ?_
    rw [Arithmetic.combine, powers.power_one]
    exact .refl _
  | kept => exact .refl _

/-! ## Whole trees -/

theorem Lettered.reduce (lettered : e.Lettered) (A : Arithmetic Float) : (e.reduce A).Lettered :=
  fun name occurs => lettered name (occurrences_reduce A e occurs)

/-- Reduction keeps the value of a tree whose parts have finite values. -/
theorem sameNumber_eval_reduce (rounded : A.IsRounded) (powers : A.HasUnitPowers)
    (signs : A.IgnoresZeroSigns) (lettered : e.Lettered)
    (finite : ∀ s ∈ e.subtrees, (s.eval A valueOf).isFinite = true) :
    SameNumber (e.eval A valueOf) ((e.reduce A).eval A valueOf) := by
  have whole := finite e e.mem_subtrees
  induction e with
  | literal | var | constant => exact .refl _
  | binary op l r left right =>
    obtain ⟨letteredLeft, letteredRight⟩ := lettered.operands
    have insideLeft (s : Expr) (inside : s ∈ l.subtrees) : (s.eval A valueOf).isFinite = true :=
      finite s (by simp [subtrees, inside])
    have insideRight (s : Expr) (inside : s ∈ r.subtrees) : (s.eval A valueOf).isFinite = true :=
      finite s (by simp [subtrees, inside])
    have finiteLeft := insideLeft l l.mem_subtrees
    have finiteRight := insideRight r r.mem_subtrees
    have sameLeft := left letteredLeft insideLeft finiteLeft
    have sameRight := right letteredRight insideRight finiteRight
    have operation : SameNumber ((binary op l r).eval A valueOf)
        ((binary op (l.reduce A) (r.reduce A)).eval A valueOf) :=
      sameNumber_combine rounded signs op sameLeft sameRight finiteLeft finiteRight whole
    rw [sameLeft.isFinite_eq] at finiteLeft
    rw [sameRight.isFinite_eq] at finiteRight
    rw [operation.isFinite_eq] at whole
    exact operation.trans ((law_reduceRoot A op (l.reduce A) (r.reduce A)).sameNumber_eval rounded
      powers signs (letteredLeft.reduce A) (letteredRight.reduce A) finiteLeft finiteRight whole)
  | apply f u argument =>
    have insideArgument (s : Expr) (inside : s ∈ u.subtrees) :
        (s.eval A valueOf).isFinite = true :=
      finite s (by simp [subtrees, inside])
    have finiteArgument := insideArgument u u.mem_subtrees
    have same := argument lettered insideArgument finiteArgument
    exact sameNumber_of_beq (signs.apply f (same.beq finiteArgument) whole)

/-- The reduced tree has the value of the tree, if every part of the tree has a finite value. -/
theorem eval_reduce_beq (rounded : A.IsRounded) (powers : A.HasUnitPowers)
    (signs : A.IgnoresZeroSigns) (lettered : e.Lettered) (b : Bindings)
    (finite : ∀ s ∈ e.subtrees, (s.eval A b.value).isFinite = true) :
    ((e.reduce A).eval A b.value == e.eval A b.value) = true := by
  have same := sameNumber_eval_reduce rounded powers signs lettered finite
  have whole := finite e e.mem_subtrees
  rw [same.isFinite_eq] at whole
  exact same.symm.beq whole

end Expr

/-! ## Known values -/

/-- A function that is known at zero alone. -/
def valueAtZero (value u : Float) : Float := if u == 0 then value else 0 / 0

/-- The arithmetic of floats, with powers and functions where their values are known beforehand. -/
def Arithmetic.known : Arithmetic Float where
  literal x := x
  euler := machine.euler
  pi := machine.pi
  plus x y := x + y
  minus x y := x - y
  times x y := x * y
  divide x y := x / y
  power x y := if y == 0 || x == 1 then 1 else if y == 1 then x else 0 / 0
  sqrt := valueAtZero 0
  ln := valueAtZero (-1 / 0)
  log := valueAtZero (-1 / 0)
  sin := valueAtZero 0
  sinh := valueAtZero 0
  asin := valueAtZero 0
  asinh := valueAtZero 0
  cos := valueAtZero 1
  cosh := valueAtZero 1
  acos := valueAtZero (machine.pi / 2)
  acosh := valueAtZero (0 / 0)
  tan := valueAtZero 0
  tanh := valueAtZero 0
  atan := valueAtZero 0
  atanh := valueAtZero 0

namespace Arithmetic

theorem isRounded_known : known.IsRounded := by
  constructor <;> intros <;> rfl

theorem hasUnitPowers_known : known.HasUnitPowers := by
  have zero : ((0 : Float) == 0) = true := rfl
  have one : ((1 : Float) == 1) = true := by decide
  have oneNotZero : ((1 : Float) == 0) = false := by decide
  constructor
  · intro x
    simp [known, zero]
  · intro x
    simp [known, one]
  · intro x
    cases isOne : x == 1 with
    | true => simp [known, eq_one_of_beq isOne, one]
    | false => simp [known, isOne, one, oneNotZero]

theorem ignoresZeroSigns_known : known.IgnoresZeroSigns := by
  constructor
  · intro x x' y y' first second finite
    have bases := (sameNumber_of_beq first).beq_congr 1
    have zeros := (sameNumber_of_beq second).beq_congr 0
    have ones := (sameNumber_of_beq second).beq_congr 1
    have undefined : (0 / 0 : Float).isFinite = false := by decide
    simp only [known, bases, zeros, ones] at finite ⊢
    split
    next => decide
    next several =>
      rw [if_neg several] at finite
      split
      next => exact first
      next noPower =>
        rw [if_neg noPower, undefined] at finite
        cases finite
  · intro f x x' same finite
    have results : known.apply f x = known.apply f x' := by
      have zeros := (sameNumber_of_beq same).beq_congr 0
      cases f <;> simp [known, apply, valueAtZero, zeros]
    rw [← results]
    exact (SameNumber.refl _).beq finite

end Arithmetic

/-- A negative zero becomes a positive one below a cosine. -/
theorem Expr.eval_reduce_beq_cos_zero_times :
    let A := Arithmetic.known
    let e := plus (minus zero (times negativeOne (power (var "x") one)))
      (apply .cos (times (literal (-0)) (var "x")))
    let b := Bindings.empty.insert "x" 2
    e.Lettered ∧ (∀ s ∈ e.subtrees, (s.eval A b.value).isFinite = true) ∧
      e.reduce A = plus (var "x") (apply .cos zero) ∧
      ((e.reduce A).eval A b.value == e.eval A b.value) = true := by
  intro A e b
  have lettered : e.Lettered := by decide
  have finite : ∀ s ∈ e.subtrees, (s.eval A b.value).isFinite = true := by decide +kernel
  have reduced : e.reduce A = plus (var "x") (apply .cos zero) := by decide
  exact ⟨lettered, finite, reduced, eval_reduce_beq Arithmetic.isRounded_known
    Arithmetic.hasUnitPowers_known Arithmetic.ignoresZeroSigns_known lettered b finite⟩

end Formulae
