import Formulae.Proofs.Number.Nonnegative
import Formulae.Sampling.Range

/-!
# The number of points of a range

A proper range has at least one point and no range has more than `maxPoints` (`count_le_maxPoints`).

The quotient that is rounded down to the number of intervals is never undefined nor negative: it is a
finite number or infinity (`nonnegative_intervals`).  So the number of points is the whole number below
the quotient and one more, but `maxPoints` at most (`count_eq_min`).

The difference of the ends, the quotient and the sum are rounded, and each may be infinite.  Rounding
keeps their order, and so a wider range or one with a lesser step does not have fewer points
(`count_le_count`).
-/

namespace Formulae

open Number

theorem floorNat_le_floorNat {x y : Float} (before : code x ≤ code y) : floorNat x ≤ floorNat y :=
  Nat.div_le_div_right (steps_strictMono.monotone before)

theorem finite_epsilon : code 1e-9 < infinityCode := by decide

theorem toReal_epsilon : 0 ≤ toReal 1e-9 ∧ toReal 1e-9 ≤ 1 / 2 ^ 4 := by
  constructor
  · rw [← nonneg_iff finite_epsilon]
    decide
  · have steps : signedSteps 1e-9 * 2 ^ 4 ≤ stepsPerUnit := by decide
    rw [toReal_of_finite finite_epsilon, div_le_div_iff₀ stepsPerUnit_pos (by positivity), one_mul]
    exact_mod_cast steps

namespace Range

/-- The quotient that is rounded down to the number of intervals. -/
def intervals (r : Range) : Float := (r.stop - r.start) / r.step + 1e-9

variable {r r' : Range}

theorem isProper_iff (r : Range) :
    r.isProper = true ↔ code r.start < infinityCode ∧ code r.stop < infinityCode ∧
      code r.step < infinityCode ∧ 0 < toReal r.step ∧ toReal r.start ≤ toReal r.stop := by
  simp only [isProper, isFinite_eq, Bool.and_eq_true, decide_eq_true_iff, Bool.not_eq_true',
    decide_eq_false_iff_not, and_assoc]
  refine and_congr_right fun start => and_congr_right fun stop => and_congr_right fun step => ?_
  rw [le_iff step (by decide), lt_iff stop start, toReal_zero, not_le, not_lt]

/-! ## The number of intervals -/

theorem nonnegative_quotient (proper : r.isProper = true) :
    Nonnegative ((r.stop - r.start) / r.step) := by
  obtain ⟨start, stop, step, positive, ordered⟩ := r.isProper_iff.1 proper
  exact (Nonnegative.of_isNearest (isNearest_sub stop start) (sub_nonneg.2 ordered)).div step positive

theorem nonnegative_intervals (proper : r.isProper = true) : Nonnegative r.intervals :=
  (nonnegative_quotient proper).add finite_epsilon toReal_epsilon.1

theorem count_of_improper (improper : ¬ r.isProper = true) : r.count = 0 := if_neg improper

/-- The number of points is that of the whole intervals and one more, up to the limit. -/
theorem count_eq_min (proper : r.isProper = true) :
    r.count = min (floorNat r.intervals + 1) maxPoints := by
  have full := (nonnegative_intervals proper).ofNat_le_iff (n := maxPoints - 1) (by decide)
  have limit : 1 ≤ maxPoints := by decide
  rw [count, if_pos proper, ← intervals]
  dsimp only
  split
  next reached =>
    have many := full.1 reached
    rw [Nat.min_eq_right (by omega)]
  next short =>
    have few := mt full.2 short
    rw [Nat.min_eq_left (by omega)]

theorem count_le_maxPoints (r : Range) : r.count ≤ maxPoints := by
  by_cases proper : r.isProper = true
  · rw [count_eq_min proper]
    exact Nat.min_le_right _ _
  · rw [count_of_improper proper]
    exact Nat.zero_le _

theorem count_pos_iff (r : Range) : 0 < r.count ↔ r.isProper = true := by
  refine ⟨fun some => ?_, fun proper => ?_⟩
  · by_contra improper
    rw [count_of_improper improper] at some
    exact Nat.lt_irrefl 0 some
  · rw [count_eq_min proper]
    exact Nat.lt_min.2 ⟨Nat.succ_pos _, by decide⟩

/-- What makes a range improper. -/
theorem count_eq_zero_iff (r : Range) :
    r.count = 0 ↔ r.start.isFinite = false ∨ r.stop.isFinite = false ∨ r.step.isFinite = false ∨
      r.step ≤ 0 ∨ r.stop < r.start := by
  rw [← Nat.le_zero, ← Nat.not_lt, count_pos_iff, isProper]
  simp only [Bool.and_eq_true, Bool.not_eq_true', decide_eq_false_iff_not, not_and_or,
    Bool.not_eq_true, not_not, or_assoc]

/-! ## Wider and finer ranges -/

/-- The second range starts no later, stops no earlier and has no greater steps. -/
structure Refines (r' r : Range) : Prop where
  /-- It starts no later. -/
  start : r'.start ≤ r.start
  /-- It stops no earlier. -/
  stop : r.stop ≤ r'.stop
  /-- It has no greater steps. -/
  step : r'.step ≤ r.step

theorem code_intervals_le (proper : r.isProper = true) (proper' : r'.isProper = true)
    (refines : r'.Refines r) : code r.intervals ≤ code r'.intervals := by
  obtain ⟨start, stop, step, -, ordered⟩ := r.isProper_iff.1 proper
  obtain ⟨start', stop', step', positive', ordered'⟩ := r'.isProper_iff.1 proper'
  have earlier := (le_iff start' start).1 refines.start
  have later := (le_iff stop stop').1 refines.stop
  have lesser := (le_iff step' step).1 refines.step
  have nonneg := sub_nonneg.2 ordered
  have nonneg' := sub_nonneg.2 ordered'
  have distance := isNearest_sub stop start
  have distance' := isNearest_sub stop' start'
  have longer : code (r.stop - r.start) ≤ code (r'.stop - r'.start) := by
    refine distance.code_le_code distance' ?_
    rw [abs_of_nonneg nonneg, abs_of_nonneg nonneg']
    exact sub_le_sub later earlier
  have quotient := (Nonnegative.of_isNearest distance nonneg).code_div_le_code
    (Nonnegative.of_isNearest distance' nonneg') longer step step' positive' lesser
  exact (nonnegative_quotient proper).code_add_le_code (nonnegative_quotient proper') quotient
    finite_epsilon toReal_epsilon.1

theorem count_le_count (proper : r.isProper = true) (proper' : r'.isProper = true)
    (refines : r'.Refines r) : r.count ≤ r'.count := by
  rw [count_eq_min proper, count_eq_min proper']
  refine Nat.le_min.2 ⟨(Nat.min_le_left _ _).trans ?_, Nat.min_le_right _ _⟩
  exact Nat.succ_le_succ (floorNat_le_floorNat (code_intervals_le proper proper' refines))

end Range

/-- A range has no points just if a field is infinite or undefined, its step is not positive or its end
is before its start, and otherwise between one and `2 ^ 24`.  Among the ranges with points, one that
starts no later, stops no earlier and has no greater steps does not have fewer. -/
theorem count_well_defined_and_monotone :
    (∀ r : Range,
      (r.count = 0 ↔ r.start.isFinite = false ∨ r.stop.isFinite = false ∨
        r.step.isFinite = false ∨ r.step ≤ 0 ∨ r.stop < r.start) ∧
      (r.count ≠ 0 → 1 ≤ r.count ∧ r.count ≤ 2 ^ 24)) ∧
      ∀ r r' : Range, r.count ≠ 0 → r'.count ≠ 0 →
        r'.start ≤ r.start → r.stop ≤ r'.stop → r'.step ≤ r.step → r.count ≤ r'.count := by
  refine ⟨fun r => ⟨r.count_eq_zero_iff, fun some => ⟨?_, r.count_le_maxPoints⟩⟩, ?_⟩
  · exact Nat.one_le_iff_ne_zero.2 some
  · intro r r' some some' start stop step
    rw [← Nat.pos_iff_ne_zero, Range.count_pos_iff] at some some'
    exact Range.count_le_count some some' ⟨start, stop, step⟩

/-- The second range contains the first one and has finer steps.  The difference of its ends is
infinite. -/
theorem count_of_infinite_difference :
    let r : Range := ⟨0, 1, 0.1⟩
    let r' : Range := ⟨-1e308, 1e308, 0.05⟩
    r.count = 11 ∧ r'.count ≠ 0 ∧ (r'.stop - r'.start).isInf = true ∧
      r'.start ≤ r.start ∧ r.stop ≤ r'.stop ∧ r'.step ≤ r.step ∧
      r.count ≤ r'.count ∧ 1 ≤ r'.count ∧ r'.count ≤ 2 ^ 24 := by
  intro r r'
  have some : r'.count ≠ 0 := by decide +kernel
  have start : r'.start ≤ r.start := by decide +kernel
  have stop : r.stop ≤ r'.stop := by decide +kernel
  have step : r'.step ≤ r.step := by decide
  exact ⟨by decide +kernel, some, by decide +kernel, start, stop, step,
    count_well_defined_and_monotone.2 r r' (by decide +kernel) some start stop step,
    (count_well_defined_and_monotone.1 r').2 some⟩

end Formulae
