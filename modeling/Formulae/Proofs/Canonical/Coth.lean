import Formulae.Proofs.Number.Nonnegative
import Formulae.Proofs.Reduction.Value

/-!
# The text of the hyperbolic cotangent

Canonical text spells `coth u` as `(e^(2 * u) + 1) / (e^(2 * u) - 1)`.  Where `coth u` has a finite
value, this quotient has one if and only if the power is finite and not one
(`finite_quotient_iff`, `isFinite_expand_coth_iff`).

The hyperbolic cotangent itself is finite in more places.  For a great argument the power overflows
although the value is close to one, and for a tiny one it is rounded to one although the value is
great (`not_isFinite_expand_coth`).  So the text loses values there.
-/

namespace Formulae

open Number

namespace Number

/-! ## Some floats -/

theorem finite_bounds :
    (code 355 < infinityCode ∧ code 710 < infinityCode) ∧
      code 4e-18 < infinityCode ∧ code 9e-18 < infinityCode ∧ code 1e-17 < infinityCode := by
  decide

/-- Twice the float `4e-18` need not be the float `8e-18`, so `9e-18` is what bounds it. -/
theorem signedSteps_bounds :
    signedSteps 355 = 355 * stepsPerUnit ∧ signedSteps 710 = 710 * stepsPerUnit ∧
      2 * signedSteps 4e-18 ≤ signedSteps 9e-18 ∧ signedSteps 9e-18 < signedSteps 1e-17 ∧
        signedSteps 1e-17 ≤ signedSteps 710 := by
  decide

/-- How close the neighbours of one are to it. -/
theorem steps_gaps :
    steps (code 1) = stepsPerUnit ∧
      2 ^ 53 * steps (code 1 - 1) + stepsPerUnit = 2 ^ 53 * stepsPerUnit ∧
        (2 ^ 53 + 1) * stepsPerUnit ≤ 2 ^ 53 * steps (code 1 + 1) := by
  decide

/-- The quotients that are not finite. -/
theorem quotient_not_finite :
    ((1 + 1) / (1 - 1) : Float).isFinite = false ∧
      ((1 / 0 + 1) / (1 / 0 - 1) : Float).isFinite = false ∧
        ((-1 / 0 + 1) / (-1 / 0 - 1) : Float).isFinite = false ∧
          ((0 / 0 + 1) / (0 / 0 - 1) : Float).isFinite = false := by
  decide

theorem toReal_bounds :
    toReal 355 = 355 ∧ toReal 710 = 710 ∧ 2 * toReal 4e-18 ≤ toReal 9e-18 ∧
      toReal 9e-18 < toReal 1e-17 ∧ toReal 1e-17 ≤ toReal 710 := by
  obtain ⟨whole, whole', double, less, ordered⟩ := signedSteps_bounds
  obtain ⟨⟨great, great'⟩, tiny, tiny', tiny''⟩ := finite_bounds
  refine ⟨?_, ?_, ?_, ?_, ?_⟩
  · exact (toReal_eq_intCast (n := 355) great whole).trans (by norm_num)
  · exact (toReal_eq_intCast (n := 710) great' whole').trans (by norm_num)
  · rw [toReal_of_finite tiny, toReal_of_finite tiny', ← mul_div_assoc,
      div_le_div_iff_of_pos_right stepsPerUnit_pos]
    exact_mod_cast double
  · exact (signedSteps_lt_iff tiny' tiny'').1 less
  · exact not_lt.1 (mt (signedSteps_lt_iff great' tiny'').2 ordered.not_gt)

/-! ## The quotient -/

variable {x p : Float}

/-- A float that is not one is not too close to one. -/
theorem one_div_le_abs_sub_one (finite : code p < infinityCode) (notOne : toReal p ≠ 1) :
    1 / 2 ^ 53 ≤ |toReal p - 1| := by
  by_contra close
  rw [not_le, abs_lt] at close
  have unit := stepsPerUnit_pos
  have positive : isNegative p = false :=
    (isNearest_toReal finite).positive (by linarith [close.1, (by norm_num : (1 : ℝ) / 2 ^ 53 < 1)])
  have value := toReal_eq_steps finite positive
  obtain ⟨one, below, above⟩ := steps_gaps
  rw [value, lt_sub_iff_add_lt, lt_div_iff₀ unit, sub_lt_iff_lt_add, div_lt_iff₀ unit] at close
  obtain ⟨lower, upper⟩ := close
  -- There is no other code between the two neighbours of one.
  have before : steps (code p) < steps (code 1 + 1) := by
    have scaled : (2 : ℝ) ^ 53 * steps (code p) < (2 ^ 53 + 1) * stepsPerUnit := by linarith
    have scaled' : 2 ^ 53 * steps (code p) < (2 ^ 53 + 1) * stepsPerUnit := by exact_mod_cast scaled
    exact Nat.lt_of_mul_lt_mul_left (scaled'.trans_le above)
  have after : steps (code 1 - 1) < steps (code p) := by
    have scaled : (2 : ℝ) ^ 53 * stepsPerUnit < 2 ^ 53 * steps (code p) + stepsPerUnit := by linarith
    have scaled' : 2 ^ 53 * stepsPerUnit < 2 ^ 53 * steps (code p) + stepsPerUnit := by
      exact_mod_cast scaled
    exact Nat.lt_of_mul_lt_mul_left (Nat.lt_of_add_lt_add_right (below.trans_lt scaled'))
  have same : code p = code 1 := by
    have notAfter := steps_strictMono.lt_iff_lt.1 before
    have notBefore := steps_strictMono.lt_iff_lt.1 after
    omega
  rw [same, one, div_self stepsPerUnit_ne_zero] at value
  exact notOne value

theorem finite_quotient {p : Float} (finite : code p < infinityCode) (notOne : toReal p ≠ 1) :
    code ((p + 1) / (p - 1)) < infinityCode := by
  have sum := isNearest_add finite finite_one
  have difference := isNearest_sub finite finite_one
  rw [toReal_one] at sum difference
  have finite_sum : code (p + 1) < infinityCode :=
    sum.finite_of_abs_le_add_one finite ((abs_add_le _ _).trans_eq (by rw [abs_one]))
  have finite_difference : code (p - 1) < infinityCode :=
    difference.finite_of_abs_le_add_one finite ((abs_sub _ _).trans_eq (by rw [abs_one]))
  have positive : (0 : ℝ) < 1 / 2 ^ 53 := by positivity
  have apart := difference.le_abs_toReal finite_difference
    (isFloat_one_div_two_pow (by norm_num)) (one_div_le_abs_sub_one finite notOne)
  have nearest := isNearest_div finite_sum finite_difference
    (abs_pos.1 (positive.trans_le apart))
  by_cases large : 2 < |toReal p|
  · -- A divisor of at least one does not make the quotient greater than the sum.
    refine nearest.finite_of_abs_le finite_sum ?_
    have one_le := difference.le_abs_toReal finite_difference isFloat_one (by
      have triangle := abs_sub_abs_le_abs_sub (toReal p) 1
      rw [abs_one] at triangle
      linarith)
    rw [abs_div]
    exact div_le_self (abs_nonneg _) one_le
  · -- The sum is small, and the divisor is at least the distance of a float from one.
    rw [not_lt] at large
    obtain ⟨-, small⟩ := sum.abs_toReal_le (isFloat_two_pow (k := 2) (by norm_num)) (by
      have triangle := abs_add_le (toReal p) 1
      rw [abs_one] at triangle
      norm_num
      linarith)
    refine (nearest.abs_toReal_le (isFloat_two_pow (k := 55) (by norm_num)) ?_).1
    rw [abs_div, div_le_iff₀ (positive.trans_le apart)]
    calc |toReal (p + 1)| ≤ 2 ^ 2 := small
      _ = 2 ^ 55 * (1 / 2 ^ 53) := by norm_num
      _ ≤ 2 ^ 55 * |toReal (p - 1)| := mul_le_mul_of_nonneg_left apart (by positivity)

/-- The quotient is finite if and only if the power is finite and not one. -/
theorem finite_quotient_iff (p : Float) :
    ((p + 1) / (p - 1)).isFinite = true ↔ p.isFinite = true ∧ p ≠ 1 := by
  obtain ⟨one, positive, negative, undefined⟩ := quotient_not_finite
  constructor
  · refine fun quotient => ⟨?_, ?_⟩
    · by_contra infinite
      rw [isFinite_iff] at infinite
      rcases eq_of_not_finite infinite with rfl | rfl | rfl
      · exact absurd quotient (Bool.eq_false_iff.1 positive)
      · exact absurd quotient (Bool.eq_false_iff.1 negative)
      · exact absurd quotient (Bool.eq_false_iff.1 undefined)
    · rintro rfl
      exact absurd quotient (Bool.eq_false_iff.1 one)
  · rintro ⟨finite, notOne⟩
    rw [isFinite_iff] at finite ⊢
    refine finite_quotient finite fun one => notOne (eq_one_of_beq ?_)
    rw [beq_iff finite finite_one, one, toReal_one]

/-- A float is not both small and great. -/
theorem not_le_of_lt_tiny (small : x < 1e-17) : ¬ 710 ≤ x := by
  intro great
  obtain ⟨⟨-, finite_great⟩, -, -, finite_tiny⟩ := finite_bounds
  by_cases finite : code x < infinityCode
  · rw [lt_iff finite finite_tiny] at small
    rw [le_iff finite_great finite] at great
    linarith [toReal_bounds.2.2.2.2]
  · revert small great
    rcases eq_of_not_finite finite with rfl | rfl | rfl <;> decide

theorem le_two_mul_of_le (finite : code x < infinityCode) (great : 355 ≤ x) : 710 ≤ 2 * x := by
  have double := isNearest_mul finite_two finite
  obtain ⟨limit, limit', -⟩ := toReal_bounds
  obtain ⟨⟨finite_limit, finite_limit'⟩, -⟩ := finite_bounds
  rw [le_iff finite_limit finite, limit] at great
  rw [toReal_two] at double
  -- The double may be infinite, but it is not less than any float below the exact double.
  by_contra below
  obtain ⟨finite', -, less⟩ := (Nonnegative.of_isNearest double (by linarith)).of_not_le
    finite_limit' below
  have least := double.le_of_le finite' (isFloat_toReal finite_limit') (by rw [limit']; linarith)
  linarith

theorem two_mul_of_le_tiny (finite : code x < infinityCode) (positive : 0 < x) (tiny : x ≤ 4e-18) :
    0 < 2 * x ∧ 2 * x < 1e-17 := by
  have double := isNearest_mul finite_two finite
  obtain ⟨-, -, room, less, -⟩ := toReal_bounds
  obtain ⟨-, finite_tiny, finite_room, finite_tiny'⟩ := finite_bounds
  rw [toReal_two] at double
  rw [positive_iff finite] at positive
  rw [le_iff finite finite_tiny] at tiny
  obtain ⟨finite', bounded⟩ := double.abs_toReal_le (isFloat_toReal finite_room)
    (by rw [abs_of_pos (by linarith)]; linarith)
  have least := double.le_of_le finite' (isFloat_toReal finite) (by linarith)
  rw [positive_iff finite', lt_iff finite' finite_tiny']
  exact ⟨positive.trans_le least, ((le_abs_self _).trans bounded).trans_lt less⟩

end Number

/-! ## The text of a tree -/

namespace Expr

variable {A : Arithmetic Float} {valueOf : String → Float} {e s t u : Expr}

theorem subtrees_subset_expand (f : Function) (u : Expr) : u.subtrees ⊆ (f.expand u).subtrees := by
  intro t inside
  cases f <;> simp [Function.expand, subtrees, inside]

/-- What a part of a tree is read as is a part of what the tree is read as. -/
theorem expand_mem_subtrees (inside : t ∈ e.subtrees) : t.expand ∈ e.expand.subtrees := by
  induction e with
  | literal | var | constant =>
    obtain rfl := List.mem_singleton.1 inside
    exact mem_subtrees _
  | binary op l r left right =>
    rcases List.mem_cons.1 inside with rfl | below
    · exact mem_subtrees _
    · refine List.mem_cons_of_mem _ (List.mem_append.2 ?_)
      exact (List.mem_append.1 below).imp left right
  | apply f u argument =>
    rcases List.mem_cons.1 inside with rfl | below
    · exact mem_subtrees _
    · exact subtrees_subset_expand f u.expand (argument below)

theorem eval_expand_coth (rounded : A.IsRounded) (free : u.IsFreeOfCoth) :
    (apply .coth u).expand.eval A valueOf =
      (A.power A.euler (2 * u.eval A valueOf) + 1) / (A.power A.euler (2 * u.eval A valueOf) - 1) := by
  have argument : u.expand.eval A valueOf = u.eval A valueOf := by
    rw [expand_eq_writeOut free, eval_writeOut rounded]
  change A.divide
    (A.plus (A.power A.euler (A.times (A.literal 2) (u.expand.eval A valueOf))) (A.literal 1))
    (A.minus (A.power A.euler (A.times (A.literal 2) (u.expand.eval A valueOf))) (A.literal 1)) = _
  rw [argument, rounded.literal, rounded.literal, rounded.times, rounded.plus, rounded.minus,
    rounded.divide]

/-- Where all parts of a tree have finite values, the text of an innermost `coth u` has a finite value
too if and only if the power in it is finite and not one. -/
theorem isFinite_expand_coth_iff (rounded : A.IsRounded) (named : e.Named)
    (finite : ∀ t ∈ e.subtrees, (t.eval A valueOf).isFinite = true)
    (accepted : parse e.canonical = .ok s) (inside : apply .coth u ∈ e.subtrees)
    (free : u.IsFreeOfCoth) :
    (apply .coth u).expand ∈ s.subtrees ∧ ((apply .coth u).eval A valueOf).isFinite = true ∧
      (((apply .coth u).expand.eval A valueOf).isFinite = true ↔
        (A.power A.euler (2 * u.eval A valueOf)).isFinite = true ∧
          A.power A.euler (2 * u.eval A valueOf) ≠ 1) := by
  obtain rfl := eq_expand_of_parse_canonical named accepted
  refine ⟨expand_mem_subtrees inside, finite _ inside, ?_⟩
  rw [eval_expand_coth rounded free]
  exact finite_quotient_iff _

end Expr

/-! ## Where values are lost -/

/-- Powers of `e` overflow and are rounded to one, and the hyperbolic tangent is rounded to one. -/
structure Arithmetic.Saturates (A : Arithmetic Float) : Prop where
  overflow {y : Float} : 710 ≤ y → A.power A.euler y = 1 / 0
  tiny {y : Float} : 0 < y → y < 1e-17 → A.power A.euler y = 1
  tanh {y : Float} : 20 ≤ y → A.tanh y = 1

namespace Expr

variable {A : Arithmetic Float} {valueOf : String → Float} {u : Expr}

/-- Great and tiny arguments of `coth` have no finite value in its text. -/
theorem not_isFinite_expand_coth (rounded : A.IsRounded) (saturates : A.Saturates)
    (free : u.IsFreeOfCoth) (finite : (u.eval A valueOf).isFinite = true)
    (outside : 355 ≤ u.eval A valueOf ∨ 0 < u.eval A valueOf ∧ u.eval A valueOf ≤ 4e-18) :
    ((apply .coth u).expand.eval A valueOf).isFinite = false := by
  rw [eval_expand_coth rounded free]
  rw [isFinite_iff] at finite
  rcases outside with great | ⟨positive, tiny⟩
  · rw [saturates.overflow (le_two_mul_of_le finite great)]
    exact quotient_not_finite.2.1
  · obtain ⟨positive, tiny⟩ := two_mul_of_le_tiny finite positive tiny
    rw [saturates.tiny positive tiny]
    exact quotient_not_finite.1

end Expr

/-- The machine's arithmetic with the powers of `e` and the hyperbolic tangents that saturate, and one
more of each, spelled out. -/
def Arithmetic.saturating : Arithmetic Float :=
  { machine with
    power := fun x y =>
      if x == machine.euler && decide (710 ≤ y) then 1 / 0
      else if x == machine.euler && (decide (0 < y) && decide (y < 1e-17)) then 1
      else if x == machine.euler && y == 2 then 7.38905609893065
      else x.pow y
    tanh := fun y => if 20 ≤ y then 1 else if y == 1 then 0.7615941559557649 else y.tanh }

namespace Arithmetic

theorem isRounded_saturating : saturating.IsRounded := by
  constructor <;> intros <;> rfl

theorem euler_beq_euler : (saturating.euler == machine.euler) = true := by
  decide

theorem saturates_saturating : saturating.Saturates where
  overflow great := if_pos (by rw [euler_beq_euler, decide_eq_true great]; rfl)
  tiny positive small := by
    refine (if_neg ?_).trans (if_pos ?_)
    · rw [decide_eq_false (not_le_of_lt_tiny small), Bool.and_false]
      exact Bool.false_ne_true
    · rw [euler_beq_euler, decide_eq_true positive, decide_eq_true small]
      rfl
  tanh great := if_pos great

end Arithmetic

namespace Expr

/-- At one the text of the hyperbolic cotangent has a finite value, between other parts of a tree. -/
theorem isFinite_expand_coth_iff_one :
    let A := Arithmetic.saturating
    let e := plus (var "x") (apply .coth (var "x"))
    let b := Bindings.empty.insert "x" 1
    e.Named ∧ (∀ t ∈ e.subtrees, (t.eval A b.value).isFinite = true) ∧
      parse e.canonical = .ok e.expand ∧ (apply .coth (var "x")).expand ∈ e.expand.subtrees ∧
      ((apply .coth (var "x")).expand.eval A b.value).isFinite = true := by
  intro A e b
  have named : e.Named := by decide
  have finite : ∀ t ∈ e.subtrees, (t.eval A b.value).isFinite = true := by decide
  have accepted : parse e.canonical = .ok e.expand :=
    (parse_canonical_iff named).2 (by decide)
  have free : (var "x").IsFreeOfCoth := trivial
  obtain ⟨inside, -, finite_iff⟩ := isFinite_expand_coth_iff (u := var "x")
    Arithmetic.isRounded_saturating named finite accepted (by simp [e, subtrees]) free
  exact ⟨named, finite, accepted, inside, finite_iff.2 (by decide)⟩

/-- `coth 400` is one, and its text has no value. -/
theorem isNaN_expand_coth_four_hundred :
    let A := Arithmetic.saturating
    let e := apply .coth (literal 400)
    A.IsRounded ∧ A.Saturates ∧ e.Named ∧ (literal 400).IsFreeOfCoth ∧
      (∀ t ∈ e.subtrees, (t.eval A Bindings.empty.value).isFinite = true) ∧
      parse e.canonical = .ok e.expand ∧
      (e.expand.eval A Bindings.empty.value).isNaN = true := by
  intro A e
  have named : e.Named := by decide
  refine ⟨Arithmetic.isRounded_saturating, Arithmetic.saturates_saturating, named, trivial,
    by decide +kernel, (parse_canonical_iff named).2 (by decide +kernel), by decide +kernel⟩

end Expr

end Formulae
