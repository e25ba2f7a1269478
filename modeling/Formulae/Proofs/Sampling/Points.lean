import Formulae.Proofs.Number.Distance
import Formulae.Proofs.Number.Place
import Formulae.Proofs.Sampling.Range

/-!
# The points of a range

A point is the start and an offset, the product of its number and the step, and both operations are
rounded.  Points are never undefined, they are in increasing order, and none is before the start
(`place_point_le_place_point`, `start_le_point`).

The number of points comes from another computation, the quotient of the length and the step.  If the
length is finite, then the two fit together.  No rounding of the quotient gains more than an eighth of a
step (`sub_eighth_le_quotient`), so the exact sum is at most half a step behind the end
(`start_add_offset_le`).  The end is a float, so rounding the sum at most doubles the way that it is
behind the end (`point_le`).

What remains is overflow.  If the length is infinite, then so is the quotient, and the range gets the
greatest number of points whatever the step is.  Apart from that, the last point may be infinite, even
where the length is not.  A range whose fields are not too great has neither
(`endsInside_of_moderate`).
-/

namespace Formulae

open Number

namespace Range

variable {r : Range} {i j : ℕ} {x : Float}

theorem mem_points_iff : x ∈ r.points ↔ ∃ i, i < r.count ∧ r.point i = x := by
  simp only [points, List.mem_map, List.mem_range]

/-! ## Offsets -/

/-- The distance of a point from the start. -/
def offset (r : Range) (i : ℕ) : Float := ofNat i * r.step

theorem isNearest_offset (proper : r.isProper = true) (whole : i ≤ 2 ^ 53) :
    IsNearest (r.offset i) (i * toReal r.step) := by
  obtain ⟨-, -, step, -, -⟩ := r.isProper_iff.1 proper
  obtain ⟨small, same⟩ := toReal_ofNat whole
  have nearest := isNearest_mul small step
  rwa [same] at nearest

theorem nonnegative_offset (proper : r.isProper = true) (whole : i ≤ 2 ^ 53) :
    Nonnegative (r.offset i) := by
  obtain ⟨-, -, -, positive, -⟩ := r.isProper_iff.1 proper
  exact Nonnegative.of_isNearest (isNearest_offset proper whole) (by positivity)

theorem code_offset_le_code_offset (proper : r.isProper = true) (whole : j ≤ 2 ^ 53)
    (before : i ≤ j) : code (r.offset i) ≤ code (r.offset j) := by
  obtain ⟨-, -, -, positive, -⟩ := r.isProper_iff.1 proper
  refine (isNearest_offset proper (before.trans whole)).code_le_code
    (isNearest_offset proper whole) ?_
  rw [abs_of_nonneg (by positivity), abs_of_nonneg (by positivity)]
  exact mul_le_mul_of_nonneg_right (Nat.cast_le.2 before) positive.le

/-! ## The order of points -/

/-- Points are in increasing order, infinite ones at the end. -/
theorem place_point_le_place_point (proper : r.isProper = true) (whole : j ≤ 2 ^ 53)
    (before : i ≤ j) : place (r.point i) ≤ place (r.point j) := by
  obtain ⟨start, -, -, -, -⟩ := r.isProper_iff.1 proper
  exact (nonnegative_offset proper (before.trans whole)).place_add_le_place_add
    (nonnegative_offset proper whole) start (code_offset_le_code_offset proper whole before)

theorem code_point_le_infinityCode (proper : r.isProper = true) (whole : i ≤ 2 ^ 53) :
    code (r.point i) ≤ infinityCode := by
  obtain ⟨start, -, -, -, -⟩ := r.isProper_iff.1 proper
  exact (nonnegative_offset proper whole).code_add_le_infinityCode start

/-- A finite point has a finite offset. -/
theorem finite_offset (proper : r.isProper = true) (whole : i ≤ 2 ^ 53)
    (finite : code (r.point i) < infinityCode) : code (r.offset i) < infinityCode := by
  obtain ⟨start, -, -, -, -⟩ := r.isProper_iff.1 proper
  cases nonnegative_offset proper whole with
  | finite small => exact small
  | infinite infinite =>
    rw [point, ← offset, (Nonnegative.add_of_infinite infinite start).2] at finite
    exact finite

theorem isNearest_point (proper : r.isProper = true) (small : code (r.offset i) < infinityCode) :
    IsNearest (r.point i) (toReal r.start + toReal (r.offset i)) := by
  obtain ⟨start, -, -, -, -⟩ := r.isProper_iff.1 proper
  exact isNearest_add start small

/-- The first point is the start, up to the sign of zero. -/
theorem place_start_le_place_point (proper : r.isProper = true) (whole : i ≤ 2 ^ 53) :
    place r.start ≤ place (r.point i) := by
  obtain ⟨start, -, -, -, -⟩ := r.isProper_iff.1 proper
  have nearest := isNearest_offset (i := 0) proper (Nat.zero_le _)
  rw [Nat.cast_zero, zero_mul] at nearest
  obtain ⟨small, none⟩ := nearest.exact isFloat_zero
  have first := isNearest_point proper small
  rw [none, add_zero] at first
  calc place r.start
      ≤ place (r.point 0) := (isNearest_toReal start).place_le_place first le_rfl
    _ ≤ place (r.point i) := place_point_le_place_point proper whole (Nat.zero_le i)

theorem start_le_point (proper : r.isProper = true) (whole : i ≤ 2 ^ 53) :
    r.start ≤ r.point i := by
  obtain ⟨start, -, -, -, -⟩ := r.isProper_iff.1 proper
  rw [le_iff_place, isNaN_eq_false_iff, isNaN_eq_false_iff]
  exact ⟨⟨start.le, code_point_le_infinityCode proper whole⟩,
    place_start_le_place_point proper whole⟩

/-- If a point is finite, then so are those before it. -/
theorem finite_point_of_le (proper : r.isProper = true) (whole : j ≤ 2 ^ 53) (before : i ≤ j)
    (finite : code (r.point j) < infinityCode) : code (r.point i) < infinityCode := by
  obtain ⟨start, -, -, -, -⟩ := r.isProper_iff.1 proper
  have lower := place_start_le_place_point proper (before.trans whole)
  have upper := place_point_le_place_point proper whole before
  have least := neg_code_le_place r.start
  have greatest := place_le_code (r.point j)
  have magnitude := natAbs_signed (isNegative (r.point i)) (code (r.point i))
  rw [← place] at magnitude
  omega

theorem toReal_point_le_toReal_point (proper : r.isProper = true) (whole : j ≤ 2 ^ 53)
    (before : i ≤ j) (finite : code (r.point j) < infinityCode) :
    toReal (r.point i) ≤ toReal (r.point j) := by
  have finite' := finite_point_of_le proper whole before finite
  rw [← le_iff finite' finite, le_iff_place, isNaN_eq_false_iff, isNaN_eq_false_iff]
  exact ⟨⟨finite'.le, finite.le⟩, place_point_le_place_point proper whole before⟩

/-! ## The number of a point and the length -/

theorem lt_maxPoints_of_lt_count (within : i < r.count) :
    r.isProper = true ∧ i ≤ floorNat r.intervals ∧ i < maxPoints := by
  have proper := r.count_pos_iff.1 (Nat.zero_lt_of_lt within)
  rw [count_eq_min proper, Nat.lt_min] at within
  exact ⟨proper, Nat.le_of_lt_succ within.1, within.2⟩

/-- A whole number less a part that is a power of two is a float. -/
theorem isFloat_sub_part {k : ℕ} (positive : 0 < i) (few : i < maxPoints) (coarse : k ≤ 4) :
    IsFloat (i - 1 / 2 ^ k) := by
  have small : i * 2 ^ k - 1 ≤ 2 ^ 53 := by
    calc i * 2 ^ k - 1 ≤ i * 2 ^ k := Nat.sub_le _ _
      _ ≤ maxPoints * 2 ^ 4 := Nat.mul_le_mul few.le (Nat.pow_le_pow_right Nat.two_pos coarse)
      _ ≤ 2 ^ 53 := by decide
  have isFloat := isFloat_natCast_div_two_pow small (k := k) (by omega)
  have some : 1 ≤ i * 2 ^ k := Nat.mul_pos positive (Nat.two_pow_pos k)
  rw [Nat.cast_sub some] at isFloat
  push_cast at isFloat
  rwa [sub_div, mul_div_cancel_right₀ _ (by positivity)] at isFloat

/-- A point has its number only if the exact quotient almost reaches it. -/
theorem sub_eighth_le_quotient (within : i < r.count)
    (length : code (r.stop - r.start) < infinityCode) :
    (i : ℝ) - 1 / 2 ^ 3 ≤ toReal (r.stop - r.start) / toReal r.step := by
  obtain ⟨proper, atMost, few⟩ := lt_maxPoints_of_lt_count within
  obtain ⟨start, stop, step, positive, ordered⟩ := r.isProper_iff.1 proper
  have nonneg := (Nonnegative.of_isNearest (isNearest_sub stop start)
    (sub_nonneg.2 ordered)).toReal_nonneg length
  rcases Nat.eq_zero_or_pos i with rfl | some
  · rw [Nat.cast_zero]
    have quotient := div_nonneg nonneg positive.le
    linarith
  · -- Below the bound the quotient and the sum are rounded to less than the number.
    by_contra less
    rw [not_le] at less
    obtain ⟨epsilon, epsilon'⟩ := toReal_epsilon
    obtain ⟨finite, nonneg', below⟩ := (isNearest_div length step positive.ne').between isFloat_zero
      (isFloat_sub_part some few (by decide)) (div_nonneg nonneg positive.le) less.le
    obtain ⟨finite', -, below'⟩ := (isNearest_add finite finite_epsilon).between isFloat_zero
      (isFloat_sub_part (k := 4) some few (by decide)) (add_nonneg nonneg' epsilon) (by linarith)
    have whole : i ≤ 2 ^ 53 := few.le.trans (by decide)
    obtain ⟨small, same⟩ := toReal_ofNat whole
    have reached := ((nonnegative_intervals proper).ofNat_le_iff whole).2 atMost
    rw [intervals, le_iff small finite', same] at reached
    linarith

/-- The exact sum of the start and the offset is at most half a step behind the end. -/
theorem start_add_offset_le (within : i < r.count)
    (length : code (r.stop - r.start) < infinityCode) (small : code (r.offset i) < infinityCode) :
    toReal r.start + toReal (r.offset i) ≤ toReal r.stop + toReal r.step / 2 := by
  obtain ⟨proper, -, few⟩ := lt_maxPoints_of_lt_count within
  obtain ⟨start, stop, step, positive, ordered⟩ := r.isProper_iff.1 proper
  have quotient := sub_eighth_le_quotient within length
  rw [le_div_iff₀ positive, sub_mul] at quotient
  have whole : i ≤ 2 ^ 53 := few.le.trans (by decide)
  -- Rounding the length and the offset changes each by a small part of it.
  have error := (isNearest_sub stop start).relative_error length
    ((isWhole_toReal stop).sub (isWhole_toReal start))
  have error' := (isNearest_offset proper whole).relative_error small
    ((isWhole_toReal step).natCast_mul i)
  rw [abs_of_nonneg (sub_nonneg.2 ordered)] at error
  rw [abs_of_nonneg (by positivity : (0 : ℝ) ≤ i * toReal r.step)] at error'
  have above := (le_abs_self _).trans ((le_div_iff₀ (by positivity)).2 error)
  have above' := (le_abs_self _).trans ((le_div_iff₀ (by positivity)).2 error')
  have bounded : (i : ℝ) * toReal r.step ≤ 2 ^ 24 * toReal r.step :=
    mul_le_mul_of_nonneg_right (by exact_mod_cast few.le) positive.le
  linarith

/-- A point whose length is finite is at most one step behind the end. -/
theorem point_le (within : i < r.count) (length : code (r.stop - r.start) < infinityCode)
    (finite : code (r.point i) < infinityCode) :
    toReal (r.point i) ≤ toReal r.stop + toReal r.step := by
  obtain ⟨proper, -, few⟩ := lt_maxPoints_of_lt_count within
  obtain ⟨-, stop, -, positive, -⟩ := r.isProper_iff.1 proper
  have small := finite_offset proper (few.le.trans (by decide)) finite
  have exactly := start_add_offset_le within length small
  have nearest := isNearest_point proper small
  rcases le_total (toReal r.start + toReal (r.offset i)) (toReal r.stop) with before | behind
  · have atMost := nearest.ge_of_ge finite (isFloat_toReal stop) before
    linarith
  · -- The end is no farther from the exact sum than half a step.
    have distance := nearest.dist_le finite stop
    rw [abs_of_nonpos (sub_nonpos.2 behind)] at distance
    have above := (le_abs_self _).trans distance
    linarith

/-! ## Points inside the range -/

/-- The number is finite, not before the start, and at most one step behind the end, exactly. -/
structure Contains (r : Range) (x : Float) : Prop where
  /-- The number is finite. -/
  finite : x.isFinite = true
  /-- It is not before the start. -/
  start : r.start ≤ x
  /-- It is at most one step behind the end. -/
  stop : toReal x ≤ toReal r.stop + toReal r.step

/-- The last point is finite, and it is at most one step behind the end if the length is infinite. -/
def EndsInside (r : Range) : Prop :=
  ∀ n, r.count = n + 1 → (r.point n).isFinite = true ∧
    ((r.stop - r.start).isFinite = true ∨
      toReal (r.point n) ≤ toReal r.stop + toReal r.step)

theorem start_le_of_mem_points (among : x ∈ r.points) : r.start ≤ x := by
  obtain ⟨i, within, rfl⟩ := mem_points_iff.1 among
  obtain ⟨proper, -, few⟩ := lt_maxPoints_of_lt_count within
  exact start_le_point proper (few.le.trans (by decide))

/-- If the last point is inside, then all points are. -/
theorem EndsInside.contains (inside : r.EndsInside) (among : x ∈ r.points) : r.Contains x := by
  have notBefore := start_le_of_mem_points among
  obtain ⟨i, within, rfl⟩ := mem_points_iff.1 among
  obtain ⟨n, last⟩ := Nat.exists_eq_succ_of_ne_zero (Nat.ne_zero_of_lt within)
  obtain ⟨finite, reach⟩ := inside n last
  obtain ⟨proper, -, few⟩ := lt_maxPoints_of_lt_count (last ▸ Nat.lt_succ_self n)
  have whole : n ≤ 2 ^ 53 := few.le.trans (by decide)
  have before : i ≤ n := Nat.le_of_lt_succ (last ▸ within)
  have finite' := finite_point_of_le proper whole before (isFinite_iff.1 finite)
  refine ⟨isFinite_iff.2 finite', notBefore, ?_⟩
  rcases reach with length | reach
  · exact point_le within (isFinite_iff.1 length) finite'
  · exact (toReal_point_le_toReal_point proper whole before (isFinite_iff.1 finite)).trans reach

theorem endsInside_of_contains (contains : ∀ x ∈ r.points, r.Contains x) : r.EndsInside := by
  intro n last
  have point := contains (r.point n) (mem_points_iff.2 ⟨n, last ▸ Nat.lt_succ_self n, rfl⟩)
  exact ⟨point.finite, .inr point.stop⟩

/-! ## Ranges that do not overflow -/

/-- The greatest field that is taken to be moderate. -/
def moderateField : Float := 1e307

theorem abs_toReal_le_of_moderate (finite : code x < infinityCode) (moderate : x.abs ≤ moderateField) :
    |toReal x| ≤ 2 ^ 1021 := by
  have finite' : code moderateField < infinityCode := by decide +kernel
  rw [abs_le_iff finite finite'] at moderate
  exact moderate.trans (toReal_le_two_pow finite' (by decide +kernel))

/-- No length and no point of a range overflows if the fields are not too great. -/
theorem endsInside_of_moderate (start : r.start.abs ≤ moderateField)
    (stop : r.stop.abs ≤ moderateField) (step : r.step.abs ≤ moderateField) : r.EndsInside := by
  intro n last
  have within : n < r.count := last ▸ Nat.lt_succ_self n
  obtain ⟨proper, -, few⟩ := lt_maxPoints_of_lt_count within
  obtain ⟨finite, finite', finite'', positive, ordered⟩ := r.isProper_iff.1 proper
  obtain ⟨start, start'⟩ := abs_le.1 (abs_toReal_le_of_moderate finite start)
  obtain ⟨stop, stop'⟩ := abs_le.1 (abs_toReal_le_of_moderate finite' stop)
  obtain ⟨step, step'⟩ := abs_le.1 (abs_toReal_le_of_moderate finite'' step)
  have double : IsFloat (2 * 2 ^ 1021) := by
    rw [← pow_succ']
    exact isFloat_two_pow (by decide)
  have fourfold : IsFloat (4 * 2 ^ 1021) := by
    rw [show (4 : ℝ) = 2 * 2 by norm_num, mul_assoc, ← pow_succ', ← pow_succ']
    exact isFloat_two_pow (by decide)
  generalize (2 : ℝ) ^ 1021 = bound at *
  obtain ⟨length, -, atMost⟩ := (isNearest_sub finite' finite).between isFloat_zero double
    (sub_nonneg.2 ordered) (by linarith)
  have quotient := sub_eighth_le_quotient within length
  rw [le_div_iff₀ positive, sub_mul] at quotient
  have whole : n ≤ 2 ^ 53 := few.le.trans (by decide)
  obtain ⟨small, nonneg, -⟩ := (isNearest_offset proper whole).between isFloat_zero fourfold
    (by positivity) (by linarith)
  have exactly := start_add_offset_le within length small
  have point := (isNearest_point proper small).between double.neg double (by linarith) (by linarith)
  exact ⟨isFinite_iff.2 point.1, .inl (isFinite_iff.2 length)⟩

end Range

/-- The points of a range are finite and inside of it just if the last one is.  It is so if the fields are
not too great.  No point of any range is before the start. -/
theorem points_inside_iff (r : Range) :
    ((∀ x ∈ r.points, r.Contains x) ↔ r.EndsInside) ∧
      (r.start.abs ≤ Range.moderateField → r.stop.abs ≤ Range.moderateField →
        r.step.abs ≤ Range.moderateField → ∀ x ∈ r.points, r.Contains x) ∧
      ∀ x ∈ r.points, r.start ≤ x :=
  ⟨⟨Range.endsInside_of_contains, fun inside _ among => inside.contains among⟩,
    fun start stop step _ among => (Range.endsInside_of_moderate start stop step).contains among,
    fun _ among => Range.start_le_of_mem_points among⟩

/-- Steps that do not meet the end, where the points are so great that each is rounded.  The last one is
rounded up to the end. -/
theorem points_inside_rounded :
    let r : Range := ⟨1e16, 1e16 + 10, 0.75⟩
    r.count = 14 ∧ r.start.abs ≤ Range.moderateField ∧ r.stop.abs ≤ Range.moderateField ∧
      r.step.abs ≤ Range.moderateField ∧ 1e16 + 10 ∈ r.points ∧ r.Contains (1e16 + 10) ∧
      r.start ≤ 1e16 + 10 ∧ r.EndsInside := by
  intro r
  have start : r.start.abs ≤ Range.moderateField := by decide +kernel
  have stop : r.stop.abs ≤ Range.moderateField := by decide +kernel
  have step : r.step.abs ≤ Range.moderateField := by decide +kernel
  have last : 1e16 + 10 ∈ r.points :=
    Range.mem_points_iff.2 ⟨13, by decide +kernel, by decide +kernel⟩
  obtain ⟨iff, moderate, notBefore⟩ := points_inside_iff r
  have inside := moderate start stop step
  exact ⟨by decide +kernel, start, stop, step, last, inside _ last, notBefore _ last, iff.1 inside⟩

/-- The length of this range is infinite.  So it has the greatest number of points, but the third offset
is infinite already. -/
theorem points_overflow :
    let r : Range := ⟨-1e308, 1e308, 1e308⟩
    r.start.isFinite = true ∧ r.stop.isFinite = true ∧ r.step.isFinite = true ∧
      r.count = Range.maxPoints ∧ 1 / 0 ∈ r.points ∧
      ¬ ∀ r : Range, r.start.isFinite = true → r.stop.isFinite = true → r.step.isFinite = true →
        ∀ x ∈ r.points, r.Contains x := by
  intro r
  have count : r.count = Range.maxPoints := by decide +kernel
  have infinite : 1 / 0 ∈ r.points :=
    Range.mem_points_iff.2 ⟨2, by rw [count]; decide, by decide +kernel⟩
  refine ⟨by decide +kernel, by decide +kernel, by decide +kernel, count, infinite, fun inside => ?_⟩
  have finite := (inside r (by decide +kernel) (by decide +kernel) (by decide +kernel) _ infinite).finite
  exact absurd finite (by decide)

end Formulae
