import Formulae.Proofs.Number.Distance
import Formulae.Proofs.Number.Nonnegative
import Formulae.Proofs.Sampling.Quantile

/-!
# Summaries are in order if no difference overflows

A quantile between two neighbours is a *blend* of them, the lower one and a part of the difference.  The
difference is rounded before the part is taken of it.  A part of at most three quarters makes up for
this, so that a blend is not beyond the greater neighbour (`blend_spec`), and greater parts give greater
blends (`blend_le_blend`).  If the difference is infinite, then so is the blend (`blend_of_infinite`).

The positions of the five quantiles of a summary are whole numbers of quarters (`StandsAt`), because
rounding keeps such multiples.  So the parts are exact, and all comparisons of positions are comparisons
of whole numbers.  Two positions have the same neighbours, or an element of the ladder is between them
(`StandsAt.le`).
-/

namespace Formulae

open Number

/-! ## Blends of two numbers -/

/-- The number at a part of the way from one number to another. -/
def blend (a b part : Float) : Float := a + (b - a) * part

/-- The floats are finite, and the second one is not less. -/
structure InOrder (a b : Float) : Prop where
  /-- The first one is finite. -/
  finite : code a < infinityCode
  /-- The second one is finite. -/
  finite' : code b < infinityCode
  /-- They are in order. -/
  le : toReal a ≤ toReal b

/-- The float stands for a number from zero to three quarters. -/
structure IsPart (part : Float) : Prop where
  /-- It is finite. -/
  finite : code part < infinityCode
  /-- It is not less than zero. -/
  nonneg : 0 ≤ toReal part
  /-- It is not greater than three quarters. -/
  le : toReal part ≤ 3 / 4

section

variable {a b part part' : Float}

/-- A part of the rounded difference is not greater than the exact difference. -/
theorem product_spec (ordered : InOrder a b) (gap : code (b - a) < infinityCode)
    (isPart : IsPart part) :
    0 ≤ toReal (b - a) ∧ code ((b - a) * part) < infinityCode ∧
      0 ≤ toReal ((b - a) * part) ∧ toReal ((b - a) * part) ≤ toReal b - toReal a := by
  have length := isNearest_sub ordered.finite' ordered.finite
  have whole := (isWhole_toReal ordered.finite').sub (isWhole_toReal ordered.finite)
  have nonneg := sub_nonneg.2 ordered.le
  have nonneg' := length.le_of_le gap isFloat_zero nonneg
  -- The float below the exact difference is beyond three quarters of the rounded one.
  obtain ⟨w, isFloat, atMost, near⟩ := length.exists_isFloat_le gap whole nonneg
  have error := length.relative_error gap whole
  rw [abs_of_nonneg nonneg] at error
  have above := (le_abs_self _).trans ((le_div_iff₀ (by positivity)).2 error)
  have below := (le_div_iff₀ (by positivity)).2 near
  obtain ⟨small, least, greatest⟩ := (isNearest_mul gap isPart.finite).between isFloat_zero isFloat
    (mul_nonneg nonneg' isPart.nonneg) (by
      calc toReal (b - a) * toReal part
          ≤ toReal (b - a) * (3 / 4) := mul_le_mul_of_nonneg_left isPart.le nonneg'
        _ ≤ w := by linarith)
  exact ⟨nonneg', small, least, greatest.trans atMost⟩

/-- A blend is between the two numbers. -/
theorem blend_spec (ordered : InOrder a b) (gap : code (b - a) < infinityCode)
    (isPart : IsPart part) :
    code (blend a b part) < infinityCode ∧ toReal a ≤ toReal (blend a b part) ∧
      toReal (blend a b part) ≤ toReal b := by
  obtain ⟨-, small, nonneg, le⟩ := product_spec ordered gap isPart
  exact (isNearest_add ordered.finite small).between (isFloat_toReal ordered.finite)
    (isFloat_toReal ordered.finite') (by linarith) (by linarith)

/-- A greater part gives a greater blend. -/
theorem blend_le_blend (ordered : InOrder a b) (gap : code (b - a) < infinityCode)
    (isPart : IsPart part) (isPart' : IsPart part') (le : toReal part ≤ toReal part') :
    toReal (blend a b part) ≤ toReal (blend a b part') := by
  obtain ⟨nonneg, small, -⟩ := product_spec ordered gap isPart
  obtain ⟨-, small', -⟩ := product_spec ordered gap isPart'
  have products := (isNearest_mul gap isPart.finite).toReal_le_toReal
    (isNearest_mul gap isPart'.finite) small small' (mul_le_mul_of_nonneg_left le nonneg)
  exact (isNearest_add ordered.finite small).toReal_le_toReal
    (isNearest_add ordered.finite small') (blend_spec ordered gap isPart).1
    (blend_spec ordered gap isPart').1 (add_le_add_right products _)

/-- If the difference overflows, then so does the blend. -/
theorem blend_of_infinite (ordered : InOrder a b) (gap : ¬ code (b - a) < infinityCode)
    (small : code part < infinityCode) (positive : 0 < toReal part) :
    code (blend a b part) = infinityCode := by
  cases Nonnegative.of_isNearest (isNearest_sub ordered.finite' ordered.finite)
    (sub_nonneg.2 ordered.le) with
  | finite small' _ => exact absurd small' gap
  | infinite whole =>
    rw [blend, (Nonnegative.div_mul_of_infinite whole small positive).2,
      (Nonnegative.add_of_infinite whole ordered.finite).2]
    exact Nonnegative.code_of_infinite whole

end

/-! ## Positions in quarters -/

/-- What the position of a quantile is behind the lower neighbour. -/
def partBehind (s : List Float) (q : Float) : Float :=
  position s q - ofNat (floorNat (position s q))

/-- The difference of the neighbours of a quantile. -/
def gap (s : List Float) (q : Float) : Float :=
  s.getD (ceilNat (position s q)) 0 - s.getD (floorNat (position s q)) 0

theorem sortedQuantile_eq_blend (s : List Float) (q : Float) :
    sortedQuantile s q = blend (s.getD (floorNat (position s q)) 0)
      (s.getD (ceilNat (position s q)) 0) (partBehind s q) := rfl

/-- The position of the quantile is a number of quarters, before the end of the list. -/
structure StandsAt (s : List Float) (q : Float) (m : ℕ) : Prop where
  /-- The position is finite. -/
  finite : code (position s q) < infinityCode
  /-- It is a number of quarters. -/
  quarters : toReal (position s q) = m / (4 : ℕ)
  /-- It is not behind the last element. -/
  within : m ≤ 4 * (s.length - 1)

namespace StandsAt

variable {s : List Float} {q q' : Float} {m m' : ℕ}

theorem abs_position (stands : StandsAt s q m) : |toReal (position s q)| = m / (4 : ℕ) := by
  rw [stands.quarters, abs_of_nonneg (by positivity)]

theorem below (stands : StandsAt s q m) : floorNat (position s q) = m / 4 := by
  rw [floorNat_eq stands.finite, stands.abs_position, Nat.floor_div_eq_div]

theorem above (stands : StandsAt s q m) : ceilNat (position s q) = (m + 3) / 4 := by
  refine eq_of_forall_ge_iff fun n => ?_
  rw [ceilNat_eq stands.finite, stands.abs_position, Nat.ceil_le,
    div_le_iff₀ (Nat.cast_pos.2 four_pos), ← Nat.cast_mul, Nat.cast_le]
  omega

theorem above_lt (stands : StandsAt s q m) (ladder : IsLadder s) : (m + 3) / 4 < s.length := by
  have within := stands.within
  have some := ladder.some
  omega

/-- What the position is behind the lower neighbour is not rounded. -/
theorem partBehind_spec (stands : StandsAt s q m) (ladder : IsLadder s) :
    IsPart (partBehind s q) ∧ toReal (partBehind s q) = (m % 4 : ℕ) / 4 := by
  have whole : m / 4 ≤ 2 ^ 53 := by
    have few := ladder.few
    have within := stands.above_lt ladder
    omega
  obtain ⟨small, same⟩ := toReal_ofNat whole
  have remainder : (m : ℝ) / (4 : ℕ) - (m / 4 : ℕ) = (m % 4 : ℕ) / 2 ^ 2 := by
    have split : ((4 * (m / 4) + m % 4 : ℕ) : ℝ) = m := congrArg _ (Nat.div_add_mod m 4)
    push_cast at split ⊢
    linarith
  have nearest := isNearest_sub stands.finite small
  rw [stands.quarters, same, remainder, ← stands.below] at nearest
  obtain ⟨finite, exactly⟩ := nearest.exact
    (isFloat_natCast_div_two_pow ((Nat.mod_lt m four_pos).le.trans (by decide)) (by decide))
  have quarters : toReal (partBehind s q) = (m % 4 : ℕ) / 4 := exactly.trans (by norm_num)
  have atMost : ((m % 4 : ℕ) : ℝ) ≤ 3 := by exact_mod_cast Nat.le_of_lt_succ (Nat.mod_lt m four_pos)
  refine ⟨⟨finite, ?_, ?_⟩, quarters⟩
  · rw [quarters]
    positivity
  · rw [quarters]
    linarith

/-- The neighbours are finite and in order. -/
theorem neighbours (stands : StandsAt s q m) (ladder : IsLadder s) :
    InOrder (s.getD (floorNat (position s q)) 0) (s.getD (ceilNat (position s q)) 0) := by
  have inside := stands.above_lt ladder
  rw [stands.below, stands.above]
  exact ⟨ladder.finite_getD (by omega), ladder.finite_getD inside,
    ladder.toReal_getD_le (by omega) inside⟩

/-- At a whole position the neighbours are one element, and the difference is zero. -/
theorem gap_of_whole (stands : StandsAt s q m) (ladder : IsLadder s) (whole : m % 4 = 0) :
    code (gap s q) < infinityCode := by
  have finite := (stands.neighbours ladder).finite
  have same : floorNat (position s q) = ceilNat (position s q) := by
    rw [stands.below, stands.above]
    omega
  rw [gap, ← same]
  exact (sub_of_toReal_eq finite finite rfl).1

/-- The quantile is finite just if the difference of its neighbours is. -/
theorem finite_iff (stands : StandsAt s q m) (ladder : IsLadder s) :
    code (sortedQuantile s q) < infinityCode ↔ code (gap s q) < infinityCode := by
  have ordered := stands.neighbours ladder
  obtain ⟨isPart, quarters⟩ := stands.partBehind_spec ladder
  rw [sortedQuantile_eq_blend]
  refine ⟨fun small => ?_, fun small => (blend_spec ordered small isPart).1⟩
  by_contra infinite
  have positive : 0 < toReal (partBehind s q) := by
    have some : 0 < m % 4 :=
      Nat.pos_of_ne_zero fun whole => infinite (stands.gap_of_whole ladder whole)
    rw [quarters]
    exact div_pos (Nat.cast_pos.2 some) four_pos
  exact small.ne (blend_of_infinite ordered infinite isPart.finite positive)

/-- A quantile at a greater position is not less, if both are finite. -/
theorem le (stands : StandsAt s q m) (stands' : StandsAt s q' m') (ladder : IsLadder s)
    (before : m ≤ m') (small : code (gap s q) < infinityCode)
    (small' : code (gap s q') < infinityCode) : sortedQuantile s q ≤ sortedQuantile s q' := by
  have ordered := stands.neighbours ladder
  have ordered' := stands'.neighbours ladder
  obtain ⟨isPart, quarters⟩ := stands.partBehind_spec ladder
  obtain ⟨isPart', quarters'⟩ := stands'.partBehind_spec ladder
  obtain ⟨bounded, -, greatest⟩ := blend_spec ordered small isPart
  obtain ⟨bounded', least, -⟩ := blend_spec ordered' small' isPart'
  rw [sortedQuantile_eq_blend, sortedQuantile_eq_blend, le_iff bounded bounded']
  rcases Nat.lt_or_ge (m' / 4) ((m + 3) / 4) with together | apart
  · -- The lower neighbour of the second position is before the upper one of the first.
    have same : floorNat (position s q) = floorNat (position s q') := by
      rw [stands.below, stands'.below]
      omega
    have same' : ceilNat (position s q) = ceilNat (position s q') := by
      rw [stands.above, stands'.above]
      omega
    rw [← same, ← same']
    refine blend_le_blend ordered small isPart isPart' ?_
    rw [quarters, quarters']
    have parts : m % 4 ≤ m' % 4 := by omega
    exact div_le_div_of_nonneg_right (Nat.cast_le.2 parts) zero_le_four
  · have inside := stands'.above_lt ladder
    have between := ladder.toReal_getD_le apart (by omega)
    rw [← stands.above, ← stands'.below] at between
    exact greatest.trans (between.trans least)

end StandsAt

/-! ## Quarters -/

/-- The float stands for a number of quarters, at most one. -/
structure IsQuarter (q : Float) (j : ℕ) : Prop where
  /-- It is finite. -/
  finite : code q < infinityCode
  /-- It is a number of quarters. -/
  quarters : toReal q = j / (4 : ℕ)
  /-- It is not greater than one. -/
  le : j ≤ 4

/-- The fractions of a summary. -/
def quarters : List Float := [0, 0.25, 0.5, 0.75, 1]

theorem isQuarter_quarters (j : ℕ) (listed : j < 5) : IsQuarter (quarters.getD j 0) j := by
  have units : ∀ j < 5, code (quarters.getD j 0) < infinityCode ∧
      signedSteps (quarters.getD j 0) * (4 : ℕ) = (j * stepsPerUnit : ℕ) := by
    decide
  obtain ⟨finite, same⟩ := units j listed
  refine ⟨finite, ?_, Nat.le_of_lt_succ listed⟩
  rw [toReal_of_finite finite, div_eq_div_iff stepsPerUnit_ne_zero (Nat.cast_ne_zero.2 four_ne_zero)]
  exact_mod_cast same

namespace IsQuarter

variable {s : List Float} {q q' : Float} {j j' m m' : ℕ}

theorem defined (quarter : IsQuarter q j) : q.isNaN = false :=
  isNaN_eq_false_iff.2 quarter.finite.le

/-- The exact position is a number of quarters, and it is rounded. -/
theorem isNearest_position (quarter : IsQuarter q j) (ladder : IsLadder s) :
    IsNearest (position s q) ((j * (s.length - 1) : ℕ) / 2 ^ 2) := by
  have inUnit : clampToUnit q = q := by
    have le : (j : ℝ) ≤ (4 : ℕ) := Nat.cast_le.2 quarter.le
    refine clampToUnit_of_mem ?_ ?_
    · rw [nonneg_iff quarter.finite, quarter.quarters]
      positivity
    · rw [le_iff quarter.finite finite_one, quarter.quarters, toReal_one]
      exact div_le_one_of_le₀ le (Nat.cast_nonneg 4)
  obtain ⟨nearest, -⟩ := ladder.position_spec quarter.defined
  rw [inUnit, quarter.quarters] at nearest
  convert nearest using 1
  push_cast
  ring

theorem exists_standsAt (quarter : IsQuarter q j) (ladder : IsLadder s) : ∃ m, StandsAt s q m := by
  obtain ⟨-, finite, -, atMost⟩ := ladder.position_spec quarter.defined
  obtain ⟨m, multiple⟩ :=
    (quarter.isNearest_position ladder).exists_multiple finite (by decide)
  have quarters : toReal (position s q) = m / (4 : ℕ) := multiple.trans (by norm_num)
  refine ⟨m, finite, quarters, ?_⟩
  rw [quarters, div_le_iff₀ (Nat.cast_pos.2 four_pos), ← Nat.cast_mul, Nat.cast_le] at atMost
  omega

theorem le_of_standsAt (quarter : IsQuarter q j) (quarter' : IsQuarter q' j') (ladder : IsLadder s)
    (before : j ≤ j') (stands : StandsAt s q m) (stands' : StandsAt s q' m') : m ≤ m' := by
  have ordered := (quarter.isNearest_position ladder).toReal_le_toReal
    (quarter'.isNearest_position ladder) stands.finite stands'.finite
    (div_le_div_of_nonneg_right (Nat.cast_le.2 (Nat.mul_le_mul_right _ before)) (by positivity))
  rwa [stands.quarters, stands'.quarters,
    div_le_div_iff_of_pos_right (Nat.cast_pos.2 four_pos), Nat.cast_le] at ordered

/-- The quantiles at quarters are in the order of their fractions. -/
theorem sortedQuantile_le (quarter : IsQuarter q j) (quarter' : IsQuarter q' j')
    (ladder : IsLadder s) (before : j ≤ j') (small : code (gap s q) < infinityCode)
    (small' : code (gap s q') < infinityCode) : sortedQuantile s q ≤ sortedQuantile s q' := by
  obtain ⟨m, stands⟩ := quarter.exists_standsAt ladder
  obtain ⟨m', stands'⟩ := quarter'.exists_standsAt ladder
  exact stands.le stands' ladder (quarter.le_of_standsAt quarter' ladder before stands stands')
    small small'

theorem finite_sortedQuantile_iff (quarter : IsQuarter q j) (ladder : IsLadder s) :
    code (sortedQuantile s q) < infinityCode ↔ code (gap s q) < infinityCode := by
  obtain ⟨m, stands⟩ := quarter.exists_standsAt ladder
  exact stands.finite_iff ladder

/-- At zero and at one there is no neighbour to differ from. -/
theorem finite_gap (quarter : IsQuarter q j) (ladder : IsLadder s) (whole : 4 ∣ j) :
    code (gap s q) < infinityCode := by
  obtain ⟨i, rfl⟩ := whole
  obtain ⟨m, stands⟩ := quarter.exists_standsAt ladder
  have few := ladder.few
  have small : i * (s.length - 1) ≤ 2 ^ 53 := by
    calc i * (s.length - 1) ≤ 1 * (s.length - 1) :=
          Nat.mul_le_mul_right _ (Nat.le_of_mul_le_mul_left quarter.le four_pos)
      _ ≤ 2 ^ 53 := by omega
  have exactly : ((4 * i * (s.length - 1) : ℕ) : ℝ) / 2 ^ 2 = (i * (s.length - 1) : ℕ) := by
    push_cast
    ring
  have nearest := quarter.isNearest_position ladder
  rw [exactly] at nearest
  obtain ⟨-, same⟩ := nearest.exact (isFloat_natCast small)
  rw [stands.quarters, div_eq_iff (Nat.cast_ne_zero.2 four_ne_zero), ← Nat.cast_mul,
    Nat.cast_inj] at same
  exact stands.gap_of_whole ladder (by omega)

end IsQuarter

/-! ## The five numbers -/

namespace Summary

/-- The five numbers are finite and in order. -/
structure IsOrdered (summary : Summary) : Prop where
  /-- They are finite. -/
  finite : ∀ x ∈ [summary.min, summary.lowerQuartile, summary.median, summary.upperQuartile,
    summary.max], x.isFinite = true
  /-- The least value is first. -/
  min_le : summary.min ≤ summary.lowerQuartile
  /-- The lower quartile is next. -/
  lowerQuartile_le : summary.lowerQuartile ≤ summary.median
  /-- The median is in the middle. -/
  median_le : summary.median ≤ summary.upperQuartile
  /-- The greatest value is last. -/
  upperQuartile_le : summary.upperQuartile ≤ summary.max

/-- The summary of a ladder. -/
def ofLadder (s : List Float) : Summary where
  min := sortedQuantile s 0
  lowerQuartile := sortedQuantile s 0.25
  median := sortedQuantile s 0.5
  upperQuartile := sortedQuantile s 0.75
  max := sortedQuantile s 1

/-- The differences of the neighbours of the three inner numbers are finite. -/
def GapsAreFinite (s : List Float) : Prop :=
  ∀ q ∈ ([0.25, 0.5, 0.75] : List Float), (gap s q).isFinite = true

section

variable {s : List Float} {samples : List Sample}

/-- The finite values of samples in order. -/
def ladder (samples : List Sample) : List Float :=
  sorted ((samples.map Prod.snd).filter Float.isFinite)

theorem exists_finite (some : ∃ sample ∈ samples, sample.2.isFinite = true) :
    ∃ v ∈ samples.map Prod.snd, v.isFinite = true := by
  obtain ⟨sample, among, finite⟩ := some
  exact ⟨sample.2, List.mem_map_of_mem among, finite⟩

theorem ofSamples_eq (some : ∃ sample ∈ samples, sample.2.isFinite = true) :
    ofSamples samples = .some (ofLadder (ladder samples)) := by
  have value := exists_finite some
  simp only [ofSamples, quantile_of_some value]
  rfl

theorem isOrdered_ofLadder_iff (isLadder : IsLadder s) :
    (ofLadder s).IsOrdered ↔ GapsAreFinite s := by
  have first : IsQuarter 0 0 := isQuarter_quarters 0 (by decide)
  have second : IsQuarter 0.25 1 := isQuarter_quarters 1 (by decide)
  have third : IsQuarter 0.5 2 := isQuarter_quarters 2 (by decide)
  have fourth : IsQuarter 0.75 3 := isQuarter_quarters 3 (by decide)
  have fifth : IsQuarter 1 4 := isQuarter_quarters 4 (by decide)
  have least := first.finite_gap isLadder (by decide)
  have greatest := fifth.finite_gap isLadder (by decide)
  have inner : GapsAreFinite s ↔ code (gap s 0.25) < infinityCode ∧
      code (gap s 0.5) < infinityCode ∧ code (gap s 0.75) < infinityCode := by
    simp [GapsAreFinite, isFinite_iff]
  have all : (∀ x ∈ [sortedQuantile s 0, sortedQuantile s 0.25, sortedQuantile s 0.5,
      sortedQuantile s 0.75, sortedQuantile s 1], x.isFinite = true) ↔ GapsAreFinite s := by
    rw [inner]
    simp [isFinite_iff, first.finite_sortedQuantile_iff isLadder,
      second.finite_sortedQuantile_iff isLadder, third.finite_sortedQuantile_iff isLadder,
      fourth.finite_sortedQuantile_iff isLadder, fifth.finite_sortedQuantile_iff isLadder, least,
      greatest]
  refine ⟨fun ordered => all.1 ordered.finite, fun finite => ?_⟩
  obtain ⟨lower, middle, upper⟩ := inner.1 finite
  exact {
    finite := all.2 finite
    min_le := first.sortedQuantile_le second isLadder (by decide) least lower
    lowerQuartile_le := second.sortedQuantile_le third isLadder (by decide) lower middle
    median_le := third.sortedQuantile_le fourth isLadder (by decide) middle upper
    upperQuartile_le := fourth.sortedQuantile_le fifth isLadder (by decide) upper greatest }

/-- The neighbours of a quarter are finite samples, so their difference is finite if all such differences
are. -/
theorem gapsAreFinite_of_differences (few : samples.length < 2 ^ 53)
    (some : ∃ sample ∈ samples, sample.2.isFinite = true)
    (differences : ∀ low ∈ samples, ∀ high ∈ samples, low.2.isFinite = true →
      high.2.isFinite = true → (high.2 - low.2).isFinite = true) : GapsAreFinite (ladder samples) := by
  have isLadder : IsLadder (ladder samples) :=
    isLadder_sorted ((List.length_map _).trans_le few.le) (exists_finite some)
  have element : ∀ {i}, i < (ladder samples).length →
      ∃ sample ∈ samples, sample.2.isFinite = true ∧ (ladder samples).getD i 0 = sample.2 := by
    intro i inside
    have among := (sorted_perm _).mem_iff.1 (List.getElem_mem inside)
    rw [List.mem_filter, List.mem_map] at among
    obtain ⟨⟨sample, among, same⟩, finite⟩ := among
    rw [List.getD_eq_getElem _ _ inside]
    exact ⟨sample, among, same ▸ finite, same.symm⟩
  intro q listed
  have quarter : ∃ j, IsQuarter q j := by
    simp only [List.mem_cons, List.not_mem_nil, or_false] at listed
    rcases listed with rfl | rfl | rfl
    · exact ⟨1, isQuarter_quarters 1 (by decide)⟩
    · exact ⟨2, isQuarter_quarters 2 (by decide)⟩
    · exact ⟨3, isQuarter_quarters 3 (by decide)⟩
  obtain ⟨j, quarter⟩ := quarter
  obtain ⟨ordered, above⟩ := isLadder.neighbours_lt quarter.defined
  obtain ⟨high, among, finite, same⟩ := element above
  obtain ⟨low, among', finite', same'⟩ := element (ordered.trans_lt above)
  rw [gap, same, same']
  exact differences low among' high among finite' finite

end

end Summary

/-- Samples with a finite value have a summary.  Its numbers are finite and in order just if no difference
of the neighbours of a quartile overflows, and so if no difference of two samples does. -/
theorem summary_isOrdered_iff (samples : List Sample) (few : samples.length < 2 ^ 53)
    (some : ∃ sample ∈ samples, sample.2.isFinite = true) :
    ∃ summary, Summary.ofSamples samples = .some summary ∧
      (summary.IsOrdered ↔ Summary.GapsAreFinite (Summary.ladder samples)) ∧
      ((∀ low ∈ samples, ∀ high ∈ samples, low.2.isFinite = true → high.2.isFinite = true →
        (high.2 - low.2).isFinite = true) → summary.IsOrdered) := by
  have iff := Summary.isOrdered_ofLadder_iff
    (isLadder_sorted ((List.length_map _).trans_le few.le) (Summary.exists_finite some))
  exact ⟨_, Summary.ofSamples_eq some, iff,
    fun differences => iff.2 (Summary.gapsAreFinite_of_differences few some differences)⟩

/-- Three finite samples.  They are great, but no difference of two overflows. -/
theorem summary_isOrdered_great :
    let samples : List Sample := [(0, -1e308), (1, 0 / 0), (2, 7e307), (3, 0)]
    samples.length < 2 ^ 53 ∧ (∃ sample ∈ samples, sample.2.isFinite = true) ∧
      Summary.ofSamples samples = some ⟨-1e308, -5e307, 0, 3.5e307, 7e307⟩ ∧
      Summary.IsOrdered ⟨-1e308, -5e307, 0, 3.5e307, 7e307⟩ ∧
      Summary.GapsAreFinite (Summary.ladder samples) := by
  intro samples
  have few : samples.length < 2 ^ 53 := by decide
  have some : ∃ sample ∈ samples, sample.2.isFinite = true :=
    ⟨(0, -1e308), List.mem_cons_self, by decide +kernel⟩
  have ladder : Summary.ladder samples = [-1e308, 0, 7e307] :=
    sorted_eq_of_perm (by decide +kernel) (by decide +kernel)
  have found : Summary.ofSamples samples = .some ⟨-1e308, -5e307, 0, 3.5e307, 7e307⟩ := by
    rw [Summary.ofSamples_eq some, ladder]
    decide +kernel
  have differences : ∀ low ∈ samples, ∀ high ∈ samples, low.2.isFinite = true →
      high.2.isFinite = true → (high.2 - low.2).isFinite = true := by
    decide +kernel
  obtain ⟨summary, same, iff, ordered⟩ := summary_isOrdered_iff samples few some
  rw [found, Option.some_inj] at same
  subst same
  exact ⟨few, some, found, ordered differences, iff.1 (ordered differences)⟩

/-- The difference of these samples is infinite, and so are the three inner numbers, which stand for
`-5e307`, `0` and `5e307`. -/
theorem summary_overflow :
    let samples : List Sample := [(0, -1e308), (1, 1e308)]
    Summary.ofSamples samples = some ⟨-1e308, 1 / 0, 1 / 0, 1 / 0, 1e308⟩ ∧
      ¬ ∀ samples : List Sample, (∃ sample ∈ samples, sample.2.isFinite = true) →
        ∃ summary, Summary.ofSamples samples = some summary ∧ summary.IsOrdered := by
  intro samples
  have some : ∃ sample ∈ samples, sample.2.isFinite = true :=
    ⟨(0, -1e308), List.mem_cons_self, by decide +kernel⟩
  have ladder : Summary.ladder samples = [-1e308, 1e308] :=
    sorted_eq_of_perm (by decide +kernel) (by decide +kernel)
  have found : Summary.ofSamples samples = .some ⟨-1e308, 1 / 0, 1 / 0, 1 / 0, 1e308⟩ := by
    rw [Summary.ofSamples_eq some, ladder]
    decide +kernel
  refine ⟨found, fun ordered => ?_⟩
  obtain ⟨summary, same, inOrder⟩ := ordered samples some
  rw [found, Option.some_inj] at same
  subst same
  have finite := inOrder.finite (1 / 0) (List.mem_cons_of_mem _ List.mem_cons_self)
  exact absurd finite (by decide)

end Formulae
