import Formulae.Proofs.Reduction.FixedPoint

/-!
# How deep reduced trees nest

The algebraic simplifier writes a reduced tree, and its text is read once more.  So the text must
not nest more levels than the parser allows.  Nearly every law leaves a text that nests no more
levels than the text of the operation (`Law.cost_le`).  There is one exception: `0 - x` nests four
levels for a variable or a constant `x`, and `-1 * x` nests five.  `signedCost` counts five levels
for every such difference, and a reduced tree does not exceed it (`cost_reduce_le`).

The tree that is reduced is the expanded one.  Its text may nest more levels than the one that was
read, because the text of `coth` leaves out the brackets of the two powers in it
(`Function.cost_expand`).

Where neither happens at the limit, the simplifier does not fail on its own text
(`simplify_algebraic_answers`).  A tree of the greatest depth with a difference `0 - x` at its
deepest place is an example where it does (`simplify_algebraic_beneath_refused`).
-/

namespace Formulae

open Formulae.Number

/-! ## Levels of operations and applications -/

theorem Operator.cost_mono (op : Operator) {m m' n n' : Nat} (left : m ≤ m') (right : n ≤ n') :
    op.cost m n ≤ op.cost m' n' := by
  cases op <;> simp only [cost] <;> omega

theorem Operator.add_two_le_cost (op : Operator) (m n : Nat) :
    2 + m ≤ op.cost m n ∧ 2 + n ≤ op.cost m n := by
  cases op <;> simp only [cost] <;> omega

theorem Function.cost_mono (f : Function) {m n : Nat} (less : m ≤ n) : f.cost m ≤ f.cost n := by
  cases f <;> simp only [cost] <;> omega

theorem Function.add_three_le_cost (f : Function) (n : Nat) : 3 + n ≤ f.cost n := by
  cases f <;> simp only [cost] <;> omega

/-! ## Levels of literals -/

theorem literalCost_le_five (x : Float) : literalCost x ≤ 5 := by
  rw [literalCost]
  split_ifs <;> decide

theorem literalCost_le_three {x : Float} (finite : x.isFinite = true) : literalCost x ≤ 3 := by
  rw [isFinite_iff] at finite
  rw [literalCost]
  rw [isNaN_eq, isInf_eq, decide_eq_false (Nat.lt_asymm finite),
    decide_eq_false (Nat.ne_of_lt finite)]
  simp only [Bool.false_eq_true, if_false]
  split_ifs <;> decide

theorem four_le_literalCost {x : Float} (unbounded : x.isFinite = false) : 4 ≤ literalCost x := by
  rw [literalCost]
  split_ifs with undefined infinite
  · exact le_rfl
  · decide
  · exact le_rfl
  all_goals
    have finite := isFinite_of_not undefined infinite
    rw [unbounded] at finite
    cases finite

/-- A sign costs two levels at most. -/
theorem literalCost_neg_le (x : Float) : literalCost (-x) ≤ 2 + literalCost x := by
  have least : 2 ≤ literalCost x := (Expr.literal x).two_le_cost
  cases finite : x.isFinite with
  | true =>
    have negative := literalCost_le_three ((isFinite_neg x).trans finite)
    omega
  | false =>
    have unbounded := four_le_literalCost finite
    have negative := literalCost_le_five (-x)
    omega

namespace Expr

variable {A : Arithmetic Float} {op : Operator} {e l r u : Expr}

theorem four_le_operator_cost (op : Operator) (l r : Expr) : 4 ≤ op.cost l.cost r.cost := by
  have least := l.two_le_cost
  have operand := (op.add_two_le_cost l.cost r.cost).1
  omega

/-- A variable or a constant. -/
def isName : Expr → Bool
  | var _ => true
  | constant _ => true
  | _ => false

/-! ## Levels of negatives -/

@[simp] theorem cost_digits :
    zero.cost = 2 ∧ one.cost = 2 ∧ two.cost = 2 ∧ negativeOne.cost = 3 := by
  decide

theorem cost_negativeOne_times (u : Expr) : (times negativeOne u).cost = 2 + max 3 u.cost := by
  simp only [cost_binary, cost_digits, Operator.cost]

theorem cost_negateReduced_le (u : Expr) : u.negateReduced.cost ≤ 2 + max 3 u.cost := by
  rcases negateReduced_cases u with ⟨l, r, rfl, -, negative⟩ | negative
  · have operand := (Operator.times.add_two_le_cost l.cost r.cost).2
    rw [negative, cost_binary]
    omega
  · rw [negative]
    cases u with
    | literal x => exact (literalCost_neg_le x).trans (by rw [cost]; omega)
    | var | constant | binary | apply => exact (cost_negativeOne_times _).le

/-- Only names nest fewer levels than a factor `-1`. -/
theorem cost_negateReduced_le_of_not_isName (notName : u.isName = false) :
    u.negateReduced.cost ≤ 2 + u.cost := by
  have bound := cost_negateReduced_le u
  cases u with
  | literal x => exact literalCost_neg_le x
  | var | constant => cases notName
  | binary op l r =>
    have operands := four_le_operator_cost op l r
    rw [cost_binary] at bound ⊢
    omega
  | apply f u =>
    have argument := f.add_three_le_cost u.cost
    rw [cost] at bound ⊢
    omega

/-! ## Levels of one operation -/

theorem cost_of_isLiteral_negativeOne (factor : u.isLiteral (-1) = true) : u.cost = 3 := by
  obtain ⟨x, rfl, same⟩ := isLiteral_iff.1 factor
  obtain rfl := eq_negativeOne_of_beq same
  exact cost_digits.2.2.2

/-- Only the law `0 - x = -x` may leave a text that nests more levels, and only for a name. -/
theorem Law.cost_le (law : Law A op l r e) :
    e.cost ≤ op.cost l.cost r.cost ∨
      (op = .minus ∧ l.isLiteral 0 = true ∧ r.isName = true ∧ e.cost = 5) := by
  obtain ⟨left, right⟩ := op.add_two_le_cost l.cost r.cost
  have least := l.two_le_cost
  obtain ⟨zeroCost, oneCost, -⟩ := cost_digits
  cases law with
  | folded finite =>
    have digits := literalCost_le_three finite
    exact .inl (digits.trans (by omega))
  | minus_self | zero_times | times_zero | zero_divide | power_zero | one_power =>
    exact .inl (by omega)
  | plus_zero | minus_zero | times_one | divide_one | power_one => exact .inl (by omega)
  | zero_plus | one_times => exact .inl (by omega)
  | zero_minus zero =>
    cases name : r.isName with
    | true =>
      refine .inr ⟨rfl, zero, rfl, ?_⟩
      cases r with
      | var | constant => exact cost_negativeOne_times _
      | literal | binary | apply => cases name
    | false =>
      have negative := cost_negateReduced_le_of_not_isName name
      exact .inl (by omega)
  | negativeOne_times factor =>
    have negative := cost_negateReduced_le r
    rw [← cost_of_isLiteral_negativeOne factor] at negative
    exact .inl negative
  | times_negativeOne factor =>
    have negative := cost_negateReduced_le l
    rw [← cost_of_isLiteral_negativeOne factor, max_comm] at negative
    exact .inl negative
  | kept => exact .inl (cost_binary ..).le

/-! ## Levels of reduced trees -/

/-- The levels that the canonical text nests if every `0 - x` of a name counts as `-1 * x`. -/
def signedCost : Expr → Nat
  | binary op l r =>
    if op = .minus ∧ l = zero ∧ r.isName = true then 5 else op.cost l.signedCost r.signedCost
  | apply f u => f.cost u.signedCost
  | leaf => leaf.cost

theorem signedCost_of_isName (name : u.isName = true) : u.signedCost = 2 := by
  cases u with
  | var | constant => rfl
  | literal | binary | apply => cases name

theorem cost_signedCost_le (op : Operator) (l r : Expr) :
    op.cost l.signedCost r.signedCost ≤ (binary op l r).signedCost := by
  rw [signedCost]
  split
  next negation =>
    obtain ⟨rfl, rfl, name⟩ := negation
    have zeroCost : zero.signedCost = 2 := cost_digits.1
    rw [zeroCost, signedCost_of_isName name]
    decide
  next => exact le_rfl

theorem cost_le_signedCost (e : Expr) : e.cost ≤ e.signedCost := by
  induction e with
  | literal | var | constant => exact le_rfl
  | apply f u argument => exact f.cost_mono argument
  | binary op l r left right =>
    rw [cost_binary]
    exact (op.cost_mono left right).trans (cost_signedCost_le op l r)

/-- On the way to a leaf there is one negative of a name at most. -/
theorem signedCost_le_succ_cost (e : Expr) : e.signedCost ≤ e.cost + 1 := by
  induction e with
  | literal | var | constant => exact Nat.le_succ _
  | apply f u argument =>
    refine (f.cost_mono argument).trans ?_
    cases f <;> simp only [Function.cost, cost] <;> omega
  | binary op l r left right =>
    rw [signedCost, cost_binary]
    split
    next => exact Nat.succ_le_succ (four_le_operator_cost op l r)
    next =>
      refine (op.cost_mono left right).trans ?_
      cases op <;> simp only [Operator.cost] <;> omega

/-- What is not the literal zero before it is reduced to one nests three levels. -/
theorem three_le_cost_of_isLiteral_zero (zero : (u.reduce A).isLiteral 0 = true)
    (different : u ≠ Expr.zero) : 3 ≤ u.cost := by
  cases u with
  | literal x =>
    obtain ⟨x, same, isZero⟩ := isLiteral_iff.1 zero
    cases same
    rcases eq_zero_of_beq isZero with rfl | rfl
    · exact absurd rfl different
    · decide
  | binary op l r =>
    rw [cost_binary]
    exact (Nat.le_succ 3).trans (four_le_operator_cost op l r)
  | var | constant | apply => cases zero

/-- What is not a name before it is reduced to one nests three levels. -/
theorem three_le_cost_of_isName (name : (u.reduce A).isName = true)
    (different : u.isName = false) : 3 ≤ u.cost := by
  cases u with
  | binary op l r =>
    rw [cost_binary]
    exact (Nat.le_succ 3).trans (four_le_operator_cost op l r)
  | var | constant => cases different
  | literal | apply => cases name

theorem five_le_signedCost (zero : (l.reduce A).isLiteral 0 = true)
    (name : (r.reduce A).isName = true) : 5 ≤ (minus l r).signedCost := by
  rw [signedCost]
  split
  next => exact le_rfl
  next other =>
    have operand : 3 ≤ l.cost ∨ 3 ≤ r.cost := by
      by_cases left : l = Expr.zero
      · refine .inr (three_le_cost_of_isName name (Bool.eq_false_iff.2 fun right => ?_))
        exact other ⟨rfl, left, right⟩
      · exact .inl (three_le_cost_of_isLiteral_zero zero left)
    have left := cost_le_signedCost l
    have right := cost_le_signedCost r
    simp only [Operator.cost]
    omega

/-- A reduced tree nests no more levels than the tree, with signed names counted as such. -/
theorem cost_reduce_le (A : Arithmetic Float) (e : Expr) : (e.reduce A).cost ≤ e.signedCost := by
  induction e with
  | literal | var | constant => exact le_rfl
  | apply f u argument => exact f.cost_mono argument
  | binary op l r left right =>
    have law := law_reduceRoot A op (l.reduce A) (r.reduce A)
    rw [reduce_binary]
    rcases law.cost_le with bound | ⟨rfl, zero, name, signed⟩
    · exact bound.trans ((op.cost_mono left right).trans (cost_signedCost_le op l r))
    · rw [signed]
      exact five_le_signedCost zero name

/-! ## Levels of expanded trees -/

theorem cost_quotients :
    (divide zero zero).cost = 4 ∧ (divide one zero).cost = 4 ∧
      (divide negativeOne zero).cost = 5 := by
  decide

theorem cost_expandLiteral (value : Float) : (expandLiteral value).cost = literalCost value := by
  obtain ⟨undefinedCost, infiniteCost, negativeCost⟩ := cost_quotients
  cases undefined : value.isNaN with
  | true => simp only [expandLiteral, literalCost, undefined, undefinedCost, if_true]
  | false =>
    cases infinite : value.isInf with
    | true =>
      simp only [expandLiteral, literalCost, undefined, infinite, Bool.false_eq_true, if_true,
        if_false]
      split <;> assumption
    | false =>
      simp only [expandLiteral, literalCost, undefined, infinite, cost, Bool.false_eq_true,
        if_false]

end Expr

/-- Only the text of `coth` nests fewer levels than that of the expanded tree. -/
theorem Function.cost_expand (f : Function) (u : Expr) :
    (f.expand u).cost = f.cost u.cost + if f = .coth then 2 else 0 := by
  have least := u.two_le_cost
  cases f with
  | cot | coth | acot =>
    simp only [expand, Expr.cost_binary, Expr.cost, cost, Operator.cost, Expr.cost_digits,
      reduceCtorEq, if_true, if_false]
    omega
  | _ => rfl

namespace Expr

variable {A : Arithmetic Float} {e u : Expr}

theorem cost_expand (free : e.IsFreeOfCoth) : e.expand.cost = e.cost := by
  induction e with
  | literal value => exact cost_expandLiteral value
  | var | constant => rfl
  | binary op l r left right => rw [expand, cost_binary, cost_binary, left free.1, right free.2]
  | apply f u argument =>
    rw [expand, f.cost_expand, if_neg free.1, argument free.2]
    rfl

/-! ## Answers of the algebraic simplifier -/

theorem simplify_algebraic_ok (named : e.Named) (enough : e.cost ≤ 512)
    (room : e.expand.signedCost ≤ 512) :
    e.simplify .algebraic = .ok (e.expand.reduce .machine) :=
  (simplify_algebraic_eq_ok_iff named).2
    ⟨enough, (cost_reduce_le .machine e.expand).trans room, rfl⟩

/-- A tree without `coth` that nests fewer levels than allowed is always simplified. -/
theorem simplify_algebraic_of_isFreeOfCoth (named : e.Named) (free : e.IsFreeOfCoth)
    (less : e.cost < 512) : e.simplify .algebraic = .ok (e.expand.reduce .machine) := by
  refine simplify_algebraic_ok named less.le ?_
  calc
    e.expand.signedCost ≤ e.expand.cost + 1 := signedCost_le_succ_cost e.expand
    _ = e.cost + 1 := by rw [cost_expand free]
    _ ≤ 512 := less

/-- The simplifier fails where its text cannot be read. -/
theorem simplify_algebraic_of_deep (named : e.Named) (deep : 512 < e.cost) :
    ∃ detail, e.simplify .algebraic = .error (.simplifier detail) := by
  obtain ⟨position, refused⟩ := (parse_canonical_within named).lacking deep
  refine ⟨(ParseError.tooDeep 512 position).message, ?_⟩
  simp [simplify, Simplifier.algebraic, refused]

/-- The text of the simplifier fails to be read exactly if it nests too many levels. -/
theorem simplify_algebraic_eq_parse_iff (named : e.Named) :
    (∃ cause, e.simplify .algebraic = .error (.parse cause)) ↔
      e.cost ≤ 512 ∧ 512 < (e.expand.reduce .machine).cost := by
  constructor
  · rintro ⟨cause, failed⟩
    have enough : e.cost ≤ 512 := by
      by_contra deep
      obtain ⟨detail, refused⟩ := simplify_algebraic_of_deep named (not_le.1 deep)
      rw [refused] at failed
      cases failed
    refine ⟨enough, ?_⟩
    by_contra fits
    have answered := (simplify_algebraic_eq_ok_iff named).2 ⟨enough, not_lt.1 fits, rfl⟩
    rw [answered] at failed
    cases failed
  · rintro ⟨enough, deep⟩
    have read := (parse_canonical_iff named).2 enough
    obtain ⟨position, refused⟩ :=
      (parse_canonical_within (named.expand.reduce .machine)).lacking deep
    exact ⟨.tooDeep 512 position, by simp [simplify, Simplifier.algebraic, read, refused]⟩

/-- The algebraic simplifier answers or fails as such if there is room for signs and for `coth`. -/
theorem simplify_algebraic_answers (named : e.Named)
    (room : e.cost ≤ 512 → e.expand.signedCost ≤ 512) :
    ((∃ s, e.simplify .algebraic = .ok s) ∨
        ∃ detail, e.simplify .algebraic = .error (.simplifier detail)) ∧
      ∀ s, parse e.canonical = .ok s → ∃ s', parse (s.reduce .machine).canonical = .ok s' := by
  constructor
  · rcases le_or_gt e.cost 512 with enough | deep
    · exact .inl ⟨_, simplify_algebraic_ok named enough (room enough)⟩
    · exact .inr (simplify_algebraic_of_deep named deep)
  · intro s read
    obtain ⟨enough, rfl⟩ := (parse_canonical_eq_ok_iff named).1 read
    refine (exists_parse_canonical_iff (named.expand.reduce .machine)).2 ?_
    exact (cost_reduce_le .machine e.expand).trans (room enough)

/-- Beneath a sum with `coth`, there is room for the negative of a variable. -/
theorem simplify_algebraic_answers_coth_plus :
    let e := plus (apply .coth (var "y")) (minus zero (var "x"))
    e.Named ∧ (e.cost ≤ 512 → e.expand.signedCost ≤ 512) ∧
      ((∃ s, e.simplify .algebraic = .ok s) ∨
        ∃ detail, e.simplify .algebraic = .error (.simplifier detail)) ∧
      ∀ s, parse e.canonical = .ok s → ∃ s', parse (s.reduce .machine).canonical = .ok s' := by
  intro e
  have named : e.Named := by decide
  have room : e.cost ≤ 512 → e.expand.signedCost ≤ 512 := fun _ => by decide
  exact ⟨named, room, simplify_algebraic_answers named room⟩

/-! ## A tree at the limit -/

/-- A tree beneath sums with one. -/
def beneath : Nat → Expr → Expr
  | 0, e => e
  | n + 1, e => plus one (beneath n e)

theorem cost_beneath (n : Nat) (e : Expr) : (beneath n e).cost = 2 * n + e.cost := by
  induction n with
  | zero => exact (Nat.zero_add _).symm
  | succ n induction =>
    have least := e.two_le_cost
    rw [beneath, cost_binary, induction, cost_digits.2.1]
    simp only [Operator.cost]
    omega

theorem occurrences_beneath (n : Nat) (e : Expr) :
    (beneath n e).occurrences = e.occurrences := by
  induction n with
  | zero => rfl
  | succ n induction => exact induction

theorem isPlain_beneath (n : Nat) (plain : e.IsPlain) : (beneath n e).IsPlain := by
  induction n with
  | zero => exact plain
  | succ n induction => exact ⟨isFinite_one, induction⟩

/-- A sum of one and a tree that is no number is kept. -/
theorem reduceRoot_one_plus (notNumber : u.isNumber = false) :
    reduceRoot A .plus one u = plus one u := by
  have notZero : one.isLiteral 0 = false := by decide
  rw [reduceRoot, folded?_of_isNumber notNumber]
  simp [applyLaw, isLiteral_of_isNumber notNumber, notZero]

theorem reduce_beneath (n : Nat) (notNumber : (e.reduce A).isNumber = false) :
    (beneath n e).reduce A = beneath n (e.reduce A) := by
  have isNumber (n : Nat) : (beneath n (e.reduce A)).isNumber = false := by
    cases n with
    | zero => exact notNumber
    | succ n => rfl
  induction n with
  | zero => rfl
  | succ n induction =>
    rw [beneath, reduce_binary, induction]
    exact reduceRoot_one_plus (isNumber n)

/-- A tree of the greatest depth whose reduced tree has one level more. -/
theorem simplify_algebraic_beneath_refused :
    let e := beneath 254 (minus zero (var "x"))
    e.Named ∧
      (∃ s, parse e.canonical = .ok s ∧ ¬ ∃ s', parse (s.reduce .machine).canonical = .ok s') ∧
      ∃ cause, e.simplify .algebraic = .error (.parse cause) := by
  intro e
  have plain : e.IsPlain := isPlain_beneath 254 ⟨isFinite_zero, trivial⟩
  have named : e.Named := by
    have operand : (minus zero (var "x")).Named := by decide
    rwa [Named, occurrences_beneath]
  have reduced : e.expand.reduce .machine = beneath 254 (times negativeOne (var "x")) := by
    have operand : (minus zero (var "x")).reduce .machine = times negativeOne (var "x") := by
      decide
    rw [plain.expand_eq, ← operand]
    exact reduce_beneath 254 (by decide)
  have enough : e.cost ≤ 512 := by
    rw [cost_beneath]
    decide
  have deep : 512 < (e.expand.reduce .machine).cost := by
    rw [reduced, cost_beneath]
    decide
  refine ⟨named, ⟨e.expand, (parse_canonical_iff named).2 enough, ?_⟩,
    (simplify_algebraic_eq_parse_iff named).2 ⟨enough, deep⟩⟩
  exact mt (exists_parse_canonical_iff (named.expand.reduce .machine)).1 (not_le.2 deep)

end Expr

end Formulae
