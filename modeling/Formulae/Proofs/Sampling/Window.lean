import Formulae.Proofs.Sampling.Routes
import Formulae.Proofs.Sampling.Weighted
import Formulae.Sampling.Window

/-!
# The window shows what it is chosen from

The least important value is at most zero and the greatest one at least zero, so the window has zero
inside.  Each end is zero or not too close to zero, so that widening moves it away from zero
(`shows_widened`).  If one of the extremes is zero then no value lies beyond it, and so the average
does not either: the branches for windows on one side of zero are never taken.
-/

namespace Formulae

open Number

/-! ## Widening -/

theorem finite_widening : code 1.3 < infinityCode := by
  decide

theorem toReal_widening : 1 ≤ toReal 1.3 ∧ toReal 1.3 ≤ 2 := by
  rw [← toReal_one, ← toReal_two, ← le_iff (by decide) finite_widening,
    ← le_iff finite_widening (by decide)]
  decide

theorem toReal_margin : 1 / 2 ^ 7 ≤ toReal 0.3 ∧ toReal 0.3 ≤ 1 := by
  constructor
  · have steps : stepsPerUnit ≤ signedSteps 0.3 * 2 ^ 7 := by decide
    rw [toReal_of_finite (by decide), le_div_iff₀ stepsPerUnit_pos, one_div,
      inv_mul_le_iff₀ (by positivity), mul_comm]
    exact_mod_cast steps
  · rw [← toReal_one, ← le_iff (by decide) (by decide)]
    decide

section

variable {x : Float}

/-- Widening moves a number that is not too great away from zero. -/
theorem widen_spec (finite : code x < infinityCode) (bounded : |toReal x| ≤ 2 ^ 998) :
    code (x * 1.3) < infinityCode ∧ (0 ≤ toReal x → toReal x ≤ toReal (x * 1.3)) ∧
      (toReal x ≤ 0 → toReal (x * 1.3) ≤ toReal x) := by
  obtain ⟨least, greatest⟩ := toReal_widening
  have nearest := isNearest_mul finite finite_widening
  obtain ⟨finite', -⟩ := nearest.abs_toReal_le (isFloat_two_pow (k := 999) (by norm_num)) (by
    rw [abs_mul, abs_of_pos (one_pos.trans_le least), pow_succ]
    exact mul_le_mul bounded greatest (by linarith) (by positivity))
  refine ⟨finite', fun nonneg => ?_, fun nonpos => ?_⟩
  · exact nearest.le_of_le finite' (isFloat_toReal finite) (le_mul_of_one_le_right nonneg least)
  · exact nearest.ge_of_ge finite' (isFloat_toReal finite) (mul_le_of_one_le_right nonpos least)

/-- The margin beside an end that is not too close to zero has its sign. -/
theorem margin_spec (finite : code x < infinityCode) (bounded : |toReal x| ≤ 2 ^ 998) :
    code (x * 0.3) < infinityCode ∧ (1 / 2 ^ 997 ≤ toReal x → 0 < toReal (x * 0.3)) ∧
      (toReal x ≤ -(1 / 2 ^ 997) → toReal (x * 0.3) < 0) := by
  obtain ⟨least, greatest⟩ := toReal_margin
  have tiny : (0 : ℝ) < 1 / 2 ^ 997 := by positivity
  have positive : (0 : ℝ) < 1 / 2 ^ 7 := by positivity
  have nearest := isNearest_mul finite (y := 0.3) (by decide)
  obtain ⟨finite', -⟩ := nearest.abs_toReal_le (isFloat_two_pow (k := 998) (by norm_num)) (by
    rw [abs_mul, abs_of_pos (positive.trans_le least)]
    exact (mul_le_of_le_one_right (abs_nonneg _) greatest).trans bounded)
  have small : IsFloat (1 / 2 ^ (997 + 7)) := isFloat_one_div_two_pow (by norm_num)
  have product : (1 : ℝ) / 2 ^ (997 + 7) = 1 / 2 ^ 997 * (1 / 2 ^ 7) := by
    rw [pow_add, one_div_mul_one_div]
  have some : (0 : ℝ) < 1 / 2 ^ (997 + 7) := by positivity
  refine ⟨finite', fun above => ?_, fun below => ?_⟩
  · refine some.trans_le (nearest.le_of_le finite' small ?_)
    rw [product]
    exact mul_le_mul above least positive.le (tiny.le.trans above)
  · refine (nearest.ge_of_ge finite' small.neg ?_).trans_lt (neg_lt_zero.2 some)
    rw [product, ← neg_mul]
    exact (mul_le_mul_of_nonneg_right below (positive.le.trans least)).trans
      (mul_le_mul_of_nonpos_left least (neg_nonpos.2 tiny.le))

end

/-- The two ends that a window is made from, with zero between them. -/
structure AreEnds (least greatest : Float) : Prop where
  /-- The lower end is finite. -/
  finite : code least < infinityCode
  /-- The upper end is finite. -/
  finite' : code greatest < infinityCode
  /-- The lower end is not too great. -/
  bounded : |toReal least| ≤ 2 ^ 998
  /-- The upper end is not too great. -/
  bounded' : |toReal greatest| ≤ 2 ^ 998
  /-- The lower end is not above zero. -/
  nonpos : toReal least ≤ 0
  /-- The upper end is not below zero. -/
  nonneg : 0 ≤ toReal greatest
  /-- The lower end is zero or not too close to zero. -/
  apart : toReal least ≠ 0 → toReal least ≤ -(1 / 2 ^ 997)
  /-- The upper end is zero or not too close to zero. -/
  apart' : toReal greatest ≠ 0 → 1 / 2 ^ 997 ≤ toReal greatest

/-- A window has both ends inside and zero properly inside. -/
structure Shows (low high least greatest : Float) : Prop where
  /-- The lower bound is finite. -/
  finite : code low < infinityCode
  /-- The upper bound is finite. -/
  finite' : code high < infinityCode
  /-- The lower bound is below zero. -/
  negative : toReal low < 0
  /-- The upper bound is above zero. -/
  positive : 0 < toReal high
  /-- The lower bound is not above the lower end. -/
  le : toReal low ≤ toReal least
  /-- The upper bound is not below the upper end. -/
  ge : toReal greatest ≤ toReal high

theorem shows_widened {least greatest : Float} (ends : AreEnds least greatest) :
    Shows (widened least greatest).1 (widened least greatest).2 least greatest := by
  obtain ⟨finite, finite', bounded, bounded', nonpos, nonneg, apart, apart'⟩ := ends
  have leastZero := beq_zero_iff finite
  have greatestZero := beq_zero_iff finite'
  have same := beq_iff finite finite'
  have positive : (0 : ℝ) < 1 / 2 ^ 997 := by positivity
  obtain ⟨below, -, outward⟩ := widen_spec finite bounded
  obtain ⟨above, outward', -⟩ := widen_spec finite' bounded'
  unfold widened
  by_cases zero : toReal least = 0
  · by_cases zero' : toReal greatest = 0
    · -- Both ends are zero.
      rw [if_pos (Bool.and_eq_true_iff.2 ⟨leastZero.2 zero, greatestZero.2 zero'⟩)]
      have ten := toReal_ten
      have negativeTen := toReal_neg 10
      rw [ten] at negativeTen
      refine ⟨by decide, by decide, ?_, ?_, ?_, ?_⟩ <;> dsimp only <;> linarith
    · -- The lower end is zero.
      have upper := apart' zero'
      have distinct : ¬ (least == greatest) = true := fun equal =>
        zero' ((same.1 equal).symm.trans zero)
      rw [if_neg (fun both => zero' (greatestZero.1 (Bool.and_eq_true_iff.1 both).2)),
        if_neg distinct, if_pos (leastZero.2 zero)]
      obtain ⟨margin, -, negative⟩ := margin_spec (x := -greatest)
        ((neg_of_defined finite'.le).1.trans_lt finite') (by rwa [toReal_neg, abs_neg])
      rw [toReal_neg] at negative
      have low := negative (neg_le_neg upper)
      have high := outward' nonneg
      exact ⟨margin, above, low, (positive.trans_le upper).trans_le high, low.le.trans zero.ge, high⟩
  · have lower := apart zero
    have low := outward nonpos
    have negative : toReal least < 0 := lower.trans_lt (neg_lt_zero.2 positive)
    have negativeLow : toReal (least * 1.3) < 0 := low.trans_lt negative
    have distinct : ¬ (least == greatest) = true := fun equal =>
      negative.not_ge (nonneg.trans_eq (same.1 equal).symm)
    rw [if_neg (fun both => zero (leastZero.1 (Bool.and_eq_true_iff.1 both).1)), if_neg distinct,
      if_neg (mt leastZero.1 zero)]
    by_cases zero' : toReal greatest = 0
    · -- The upper end is zero.
      rw [if_pos (greatestZero.2 zero')]
      obtain ⟨margin, positive', -⟩ := margin_spec (x := -least)
        ((neg_of_defined finite.le).1.trans_lt finite) (by rwa [toReal_neg, abs_neg])
      rw [toReal_neg] at positive'
      have high := positive' (le_neg_of_le_neg lower)
      exact ⟨below, margin, negativeLow, high, low, zero'.le.trans high.le⟩
    · -- The ends lie on both sides of zero.
      have upper := apart' zero'
      have high := outward' nonneg
      rw [if_neg (mt greatestZero.1 zero')]
      exact ⟨below, above, negativeLow, (positive.trans_le upper).trans_le high, low, high⟩

/-! ## Important values -/

/-- What makes the least, the typical and the greatest value fit into one window. -/
structure AreImportant (a t b : Float) : Prop where
  /-- The least value is moderate. -/
  least : IsModerate a
  /-- The greatest value is moderate. -/
  greatest : IsModerate b
  /-- The typical value is finite. -/
  finite : code t < infinityCode
  /-- The typical value is not too great. -/
  bounded : |toReal t| ≤ 2 ^ 998
  /-- The least value is not above zero. -/
  nonpos : toReal a ≤ 0
  /-- The greatest value is not below zero. -/
  nonneg : 0 ≤ toReal b
  /-- If the least value is zero, then the typical one is not below zero. -/
  noneBelow : toReal a = 0 → 0 ≤ toReal t
  /-- If the greatest value is zero, then the typical one is not above zero. -/
  noneAbove : toReal b = 0 → toReal t ≤ 0

theorem areImportant_of_bounded {samples : List Sample} (few : samples.length ≤ Range.maxPoints)
    (bounded : ∀ s ∈ samples, s.2.isFinite = true → |toReal s.2| ≤ 2 ^ 997) (required : ℕ) :
    AreImportant (weightedExtremes samples).1.value
      (weightedAverage (weightedValues samples) required) (weightedExtremes samples).2.value := by
  obtain ⟨moderate, fewWeights⟩ := weightedValues_spec few bounded
  have all : ∀ w ∈ {} :: weightedValues samples, w.IsModerate := by
    intro w member
    rcases List.mem_cons.1 member with rfl | rest
    · exact Weighted.isModerate_default
    · exact moderate w rest
  obtain ⟨lowest, member, highest, member', extremes, between⟩ := weightedExtremes_of_moderate all
  rw [extremes]
  generalize weightedValues samples = values at *
  have upper : IsBound (2 ^ 998) := IsBound.two_pow le_rfl
  have size : (0 : ℝ) ≤ 2 ^ 998 := by positivity
  have default := List.mem_cons_self (a := ({} : Weighted)) (l := values)
  obtain ⟨finite, average, average'⟩ := weightedAverage_between upper.neg upper
    (neg_nonpos.2 size) size ⟨moderate, fun w member => (moderate w member).value_between.1,
      fun w member => (moderate w member).value_between.2, fewWeights⟩ required
  refine ⟨(all lowest member).value, (all highest member').value, finite,
    abs_le.2 ⟨average, average'⟩, ?_, ?_, fun zero => ?_, fun zero => ?_⟩
  · exact (all lowest member).product_nonpos_iff.1
      ((between {} default).1.trans toReal_product_default.le)
  · exact (all highest member').product_nonneg_iff.1
      (toReal_product_default.ge.trans (between {} default).2)
  · -- No value is below zero, and so the average is not.
    have nonneg := (all lowest member).product_nonneg_iff.2 zero.ge
    exact (weightedAverage_between IsBound.zero upper le_rfl size ⟨moderate, fun w member =>
      (moderate w member).product_nonneg_iff.1
        (nonneg.trans (between w (List.mem_cons_of_mem _ member)).1),
      fun w member => (moderate w member).value_between.2, fewWeights⟩ required).2.1
  · -- No value is above zero, and so the average is not.
    have nonpos := (all highest member').product_nonpos_iff.2 zero.le
    exact (weightedAverage_between upper.neg IsBound.zero (neg_nonpos.2 size) le_rfl
      ⟨moderate, fun w member => (moderate w member).value_between.1, fun w member =>
        (moderate w member).product_nonpos_iff.1
          ((between w (List.mem_cons_of_mem _ member)).2.trans nonpos), fewWeights⟩ required).2.2

/-- The ends of important values are ends that a window can be made from. -/
theorem AreImportant.areEnds {a t b least greatest : Float} (important : AreImportant a t b)
    (ends : leastAndGreatest [a, t, b] = some (least, greatest)) :
    AreEnds least greatest ∧
      ∀ v ∈ [a, t, b], toReal least ≤ toReal v ∧ toReal v ≤ toReal greatest := by
  obtain ⟨member, member', between⟩ := leastAndGreatest_spec ends
  have finite : ∀ v ∈ [a, t, b], code v < infinityCode ∧ |toReal v| ≤ 2 ^ 998 := by
    simp only [List.forall_mem_cons]
    exact ⟨⟨important.least.finite, important.least.bounded⟩, ⟨important.finite, important.bounded⟩,
      ⟨important.greatest.finite, important.greatest.bounded⟩, fun _ none => nomatch none⟩
  have inside : ∀ v ∈ [a, t, b], toReal least ≤ toReal v ∧ toReal v ≤ toReal greatest :=
    fun v among => ⟨toReal_le_of_rank (finite _ member).1 (finite v among).1 (between v among).1,
      toReal_le_of_rank (finite v among).1 (finite _ member').1 (between v among).2⟩
  have lower := (inside a (by simp)).1
  have upper := (inside b (by simp)).2
  have tiny : (1 : ℝ) / 2 ^ 997 ≤ 1 / 2 ^ 7 :=
    one_div_le_one_div_of_le (by positivity) (pow_le_pow_right₀ one_le_two (by norm_num))
  refine ⟨⟨(finite _ member).1, (finite _ member').1, (finite _ member).2, (finite _ member').2,
    lower.trans important.nonpos, important.nonneg.trans upper, fun nonzero => ?_, fun nonzero => ?_⟩,
    inside⟩
  · -- The least value is below zero, for else no value would be.
    have negative : toReal a ≠ 0 := by
      intro zero
      refine nonzero ((lower.trans zero.le).antisymm ?_)
      have all : ∀ v ∈ [a, t, b], 0 ≤ toReal v := by
        simp only [List.forall_mem_cons]
        exact ⟨zero.ge, important.noneBelow zero, important.nonneg, fun _ none => nomatch none⟩
      exact all least member
    have apart := important.least.apart negative
    rw [abs_of_nonpos important.nonpos] at apart
    exact lower.trans ((le_neg_of_le_neg apart).trans (neg_le_neg tiny))
  · -- The greatest value is above zero, for else no value would be.
    have positive : toReal b ≠ 0 := by
      intro zero
      refine nonzero (le_antisymm ?_ (zero.ge.trans upper))
      have all : ∀ v ∈ [a, t, b], toReal v ≤ 0 := by
        simp only [List.forall_mem_cons]
        exact ⟨important.nonpos, important.noneAbove zero, zero.le, fun _ none => nomatch none⟩
      exact all greatest member'
    have apart := important.greatest.apart positive
    rw [abs_of_nonneg important.nonneg] at apart
    exact tiny.trans (apart.trans upper)

/-- The window of important values shows them all, with zero properly inside. -/
theorem AreImportant.shown {a t b : Float} (important : AreImportant a t b) :
    a ≤ 0 ∧ 0 ≤ b ∧ t.isFinite = true ∧ (window [a, t, b]).1 < 0 ∧ 0 < (window [a, t, b]).2 ∧
      ∀ v ∈ [a, t, b], (window [a, t, b]).1 ≤ v ∧ v ≤ (window [a, t, b]).2 := by
  have kept : [a, t, b].filter Float.isFinite = [a, t, b] := by
    simp [isFinite_eq, important.least.finite, important.finite, important.greatest.finite]
  have opened : window [a, t, b] = widened ([t, b].foldl lesser a) ([t, b].foldl greater a) := by
    rw [window, kept]
    rfl
  obtain ⟨ends, inside⟩ := important.areEnds rfl
  obtain ⟨finite, finite', negative, positive, le, ge⟩ := shows_widened ends
  rw [opened]
  refine ⟨?_, ?_, ?_, ?_, ?_, fun v among => ?_⟩
  · exact (nonpos_iff important.least.finite).2 important.nonpos
  · exact (nonneg_iff important.greatest.finite).2 important.nonneg
  · exact isFinite_iff.2 important.finite
  · exact (negative_iff finite).2 negative
  · exact (positive_iff finite').2 positive
  · have among' : code v < infinityCode := by
      rw [← kept, List.mem_filter, isFinite_iff] at among
      exact among.2
    rw [le_iff finite among', le_iff among' finite']
    exact ⟨le.trans (inside v among).1, (inside v among).2.trans ge⟩

/-! ## The window of an expression -/

theorem toReal_limit : toReal 1e300 ≤ 2 ^ 997 :=
  toReal_le_two_pow (by decide +kernel) (by decide +kernel)

/-- If no finite sample of an expression is greater than `1e300`, then its window shows the important
values, with zero properly inside. -/
theorem window_importantValues (e : Expr) (r : Range)
    (bounded : ∀ s ∈ e.samples r, s.2.isFinite = true → s.2.abs ≤ 1e300) :
    ∃ a t b low high, e.importantValues r = [a, t, b] ∧ window [a, t, b] = (low, high) ∧
      a ≤ 0 ∧ 0 ≤ b ∧ t.isFinite = true ∧ low < 0 ∧ 0 < high ∧
      ∀ v ∈ [a, t, b], low ≤ v ∧ v ≤ high := by
  have important : AreImportant (weightedExtremes (e.samples r)).1.value
      (weightedAverage (weightedValues (e.samples r)) typicalWeight)
      (weightedExtremes (e.samples r)).2.value := by
    refine areImportant_of_bounded ((e.length_samples r).trans_le r.count_le_maxPoints) ?_ _
    intro s member finite
    have small := bounded s member finite
    rw [isFinite_eq, decide_eq_true_iff] at finite
    obtain ⟨finite', magnitude⟩ := toReal_abs finite
    rw [le_iff finite' (by decide +kernel), magnitude] at small
    exact small.trans toReal_limit
  exact ⟨_, _, _, _, _, rfl, rfl, important.shown⟩

/-- The samples of the parabola `x * x - 2` at whole numbers: `-2` occurs only once, so the value with
the least product is `-1`. -/
theorem window_importantValues_parabola :
    let e : Expr := .minus (.times (.var "x") (.var "x")) (.literal 2)
    (∀ s ∈ e.samples ⟨-2, 2, 1⟩, s.2.isFinite = true → s.2.abs ≤ 1e300) ∧
      e.importantValues ⟨-2, 2, 1⟩ = [-1, 0.5, 2] ∧
      ∃ low high, window [-1, 0.5, 2] = (low, high) ∧ low < 0 ∧ 0 < high ∧
        ∀ v ∈ ([-1, 0.5, 2] : List Float), low ≤ v ∧ v ≤ high := by
  intro e
  have bounded : ∀ s ∈ e.samples ⟨-2, 2, 1⟩, s.2.isFinite = true → s.2.abs ≤ 1e300 := by
    decide +kernel
  have important : e.importantValues ⟨-2, 2, 1⟩ = [-1, 0.5, 2] := by decide +kernel
  obtain ⟨a, t, b, low, high, values, opened, -, -, -, shown⟩ :=
    window_importantValues e ⟨-2, 2, 1⟩ bounded
  rw [important] at values
  rw [← values] at opened shown
  exact ⟨bounded, important, low, high, opened, shown⟩

end Formulae
