import Mathlib.Algebra.Order.Field.Power
import Mathlib.Data.Rat.Cast.Order
import Mathlib.Tactic.GCongr
import Mathlib.Tactic.Linarith
import Mathlib.Tactic.LinearCombination
import Mathlib.Tactic.Positivity
import Formulae.Decimal.Shortest
import Formulae.Proofs.Number.Steps

/-!
# The shortest decimal reads back

`shortest` takes the first decimal that it finds in the rounding interval of a float.  A decimal in
this interval rounds to the float (`Interval.Holds.nearestCode_eq`), so all that remains is that the
search finds one.

The search visits `searchDepth` grids, the last of them so fine that the point behind the middle
lies in the upper half of the interval (`gridPoint_isSome`).  This is an inequality between a power
of ten and a power of two.  The exponent that the search starts with approximates the logarithm of
two by a fraction, and `ten_zpow_le` bounds the error.
-/

namespace Formulae.Decimal

open Formulae.Number

/-- The decimal lies in the interval. -/
def Interval.Holds (i : Interval) (d : Decimal) : Prop :=
  i.contains (d.significand * (gridSpacing d.exponent).1) (gridSpacing d.exponent).2 = true

theorem denominator_pos (e : Int) : 0 < (gridSpacing e).2 := Nat.pow_pos (by decide)

theorem spacing_pos (e : Int) : 0 < (gridSpacing e).1 :=
  Nat.mul_pos (Nat.pow_pos (by decide)) (by decide)

/-! ## Decimals of the interval -/

theorem Interval.contains_iff {i : Interval} {numerator denominator : Nat} :
    i.contains numerator denominator = true ↔
      i.low * denominator ≤ numerator ∧ numerator ≤ i.high * denominator ∧
        (i.closed = false → i.low * denominator < numerator ∧
          numerator < i.high * denominator) := by
  unfold contains
  cases i.closed with
  | true => simp
  | false =>
    simp only [Bool.false_eq_true, if_false, Bool.and_eq_true, decide_eq_true_eq, forall_const]
    omega

/-- A decimal in the rounding interval of a code rounds to this code. -/
theorem Interval.Holds.nearestCode_eq {code : Nat} {d : Decimal} (defined : code ≤ infinityCode)
    (holds : (ofCode code).Holds d) :
    nearestCode (d.significand * 10 ^ d.exponent.toNat) (10 ^ (-d.exponent).toNat) = code := by
  have scaled : d.significand * (gridSpacing d.exponent).1 =
      2 * (d.significand * 10 ^ d.exponent.toNat * stepsPerUnit) := by
    change d.significand * (10 ^ d.exponent.toNat * (2 * stepsPerUnit)) = _
    ring
  obtain ⟨above, below, inside⟩ := contains_iff.1 holds
  rw [scaled] at above below inside
  refine Number.nearestCode_eq (denominator_pos d.exponent) defined above below ?_
  intro odd
  exact inside (by simp [ofCode, odd])

/-! ## The grids visited -/

/-- A power of ten whose exponent is that of two times an approximate logarithm `b / a`. -/
theorem ten_zpow_le {a b : Nat} {p k : Int} (lower : 2 ^ a ≤ 10 ^ b) (upper : 10 ^ b ≤ 2 ^ (a + 1))
    (positive : 0 < a) (small : k ≤ a) (exponent : p * a ≤ b * k) :
    (10 : Rat) ^ p ≤ 2 ^ (k + 1) := by
  have lower' : (2 : Rat) ^ a ≤ 10 ^ b := by exact_mod_cast lower
  have upper' : (10 : Rat) ^ b ≤ 2 ^ (a + 1) := by exact_mod_cast upper
  -- Comparing the powers with exponent `a` makes the fraction `b / a` whole.
  refine (pow_le_pow_iff_left₀ (by positivity) (by positivity) positive.ne').1 ?_
  rw [← zpow_natCast, ← zpow_natCast, ← zpow_mul, ← zpow_mul]
  refine (zpow_le_zpow_right₀ (by norm_num) exponent).trans ?_
  rw [zpow_mul, zpow_natCast]
  rcases Int.le_total 0 k with nonnegative | negative
  · obtain ⟨n, rfl⟩ := Int.eq_ofNat_of_zero_le nonnegative
    rw [zpow_natCast]
    refine (pow_le_pow_left₀ (by positivity) upper' n).trans ?_
    rw [← pow_mul, ← zpow_natCast]
    refine zpow_le_zpow_right₀ (by norm_num) ?_
    push_cast
    linarith
  · obtain ⟨n, rfl⟩ := Int.exists_eq_neg_ofNat negative
    rw [zpow_neg, zpow_natCast]
    refine (inv_anti₀ (by positivity) (pow_le_pow_left₀ (by positivity) lower' n)).trans ?_
    rw [← pow_mul, ← zpow_natCast, ← zpow_neg]
    refine zpow_le_zpow_right₀ (by norm_num) ?_
    push_cast
    linarith

theorem spacing_eq (e : Int) :
    ((gridSpacing e).1 : Rat) = 10 ^ e * 2 ^ (1075 : Int) * (gridSpacing e).2 := by
  have unit : ((2 * stepsPerUnit : Nat) : Rat) = 2 ^ (1075 : Int) := by
    rw [show 2 * stepsPerUnit = 2 ^ 1075 by decide +kernel, Nat.cast_pow, Nat.cast_ofNat]
    exact (zpow_natCast 2 1075).symm
  have power : (10 : Rat) ^ e.toNat = 10 ^ e * 10 ^ (-e).toNat := by
    rw [← zpow_natCast, ← zpow_natCast, ← zpow_add₀ (by norm_num)]
    congr 1
    omega
  change ((10 ^ e.toNat * (2 * stepsPerUnit) : Nat) : Rat) =
    10 ^ e * 2 ^ (1075 : Int) * ((10 ^ (-e).toNat : Nat) : Rat)
  rw [Nat.cast_mul, unit, Nat.cast_pow, Nat.cast_pow, Nat.cast_ofNat, power]
  ring

/-- On the last grid that the search visits the points are close to each other. -/
theorem Interval.spacing_le {i : Interval} (nonzero : i.middle ≠ 0)
    (bounded : i.middle.log2 ≤ 100000) :
    (gridSpacing (i.coarsest - (23 : Nat))).1 * 2 ^ 54 ≤
      i.middle * (gridSpacing (i.coarsest - (23 : Nat))).2 := by
  have exponent : ((i.middle.log2 : Int) - 1073) * 30103 / 100000 * 100000 ≤
      30103 * ((i.middle.log2 : Int) - 1073) := by omega
  have powers := ten_zpow_le (a := 100000) (b := 30103) (by decide +kernel) (by decide +kernel)
    (by decide) (by omega) exponent
  have coarse :
      i.coarsest - (23 : Nat) = ((i.middle.log2 : Int) - 1073) * 30103 / 100000 + (-22) := by
    unfold coarsest
    omega
  have magnitude : (2 : Rat) ^ (i.middle.log2 : Int) ≤ i.middle := by
    rw [zpow_natCast]
    exact_mod_cast Nat.log2_self_le nonzero
  rw [← Nat.cast_le (α := Rat), Nat.cast_mul, Nat.cast_mul, spacing_eq, coarse,
    zpow_add₀ (by norm_num)]
  generalize ((i.middle.log2 : Int) - 1073) * 30103 / 100000 = p at powers ⊢
  generalize (gridSpacing _).2 = denominator
  have split : (2 : Rat) ^ (1075 : Int) * ((2 ^ 54 : Nat) : Rat) =
      2 ^ (57 : Int) * 2 ^ (1072 : Int) := by
    rw [Nat.cast_pow, Nat.cast_ofNat, ← zpow_natCast, ← zpow_add₀ (by norm_num),
      ← zpow_add₀ (by norm_num)]
    rfl
  have surplus : (10 : Rat) ^ (-22 : Int) * 2 ^ (57 : Int) ≤ 1 := by norm_num
  calc 10 ^ p * 10 ^ (-22 : Int) * 2 ^ (1075 : Int) * denominator * ((2 ^ 54 : Nat) : Rat)
      = 10 ^ p * (10 ^ (-22 : Int) * 2 ^ (57 : Int)) * 2 ^ (1072 : Int) * denominator := by
        linear_combination 10 ^ p * 10 ^ (-22 : Int) * denominator * split
    _ ≤ 2 ^ ((i.middle.log2 : Int) - 1073 + 1) * 1 * 2 ^ (1072 : Int) * denominator := by gcongr
    _ = 2 ^ (i.middle.log2 : Int) * denominator := by
        rw [mul_one, ← zpow_add₀ (by norm_num)]
        congr 2
        omega
    _ ≤ i.middle * denominator := by gcongr

/-! ## The search -/

theorem Interval.gridPoint_holds {i : Interval} {e : Int} {n : Nat}
    (found : i.gridPoint e = some n) : i.Holds ⟨n, e⟩ := by
  unfold gridPoint at found
  dsimp only at found
  unfold Holds
  split at found
  next below above =>
    cases found
    split
    next => exact below
    next => exact above
  next below _ => cases found; exact below
  next _ above => cases found; exact above
  next => cases found

/-- A grid has a point in the interval if its points are closer than the middle and the end. -/
theorem Interval.gridPoint_isSome {i : Interval} {e : Int} (ordered : i.low ≤ i.middle)
    (fine : (gridSpacing e).1 + i.middle * (gridSpacing e).2 < i.high * (gridSpacing e).2) :
    (i.gridPoint e).isSome = true := by
  have spacing := spacing_pos e
  have above : i.contains ((i.middle * (gridSpacing e).2 / (gridSpacing e).1 + 1) *
      (gridSpacing e).1) (gridSpacing e).2 = true := by
    have behind := Nat.lt_mul_of_div_lt
      (Nat.lt_succ_self (i.middle * (gridSpacing e).2 / (gridSpacing e).1)) spacing
    have close := Nat.div_mul_le_self (i.middle * (gridSpacing e).2) (gridSpacing e).1
    have start := Nat.mul_le_mul_right (gridSpacing e).2 ordered
    have strictly : i.low * (gridSpacing e).2 <
        (i.middle * (gridSpacing e).2 / (gridSpacing e).1 + 1) * (gridSpacing e).1 ∧
        (i.middle * (gridSpacing e).2 / (gridSpacing e).1 + 1) * (gridSpacing e).1 <
          i.high * (gridSpacing e).2 := by
      rw [Nat.succ_eq_add_one, Nat.add_mul, Nat.one_mul] at behind
      rw [Nat.add_mul, Nat.one_mul]
      omega
    exact contains_iff.2 ⟨strictly.1.le, strictly.2.le, fun _ => strictly⟩
  unfold gridPoint
  dsimp only
  rw [above]
  split
  next => rfl
  next inside => cases inside
  next => rfl
  next inside => cases inside

/-- The search finds a decimal of the interval if one of its grids has one. -/
theorem Interval.search_holds {i : Interval} (depth : Nat) {e : Int} {k : Nat} (visited : k < depth)
    (exists_point : (i.gridPoint (e - k)).isSome = true) : i.Holds (i.search depth e) := by
  induction depth generalizing e k with
  | zero => cases visited
  | succ depth induction =>
    unfold search
    split
    next n found => exact gridPoint_holds found
    next empty =>
      cases k with
      | zero =>
        rw [Int.natCast_zero, Int.sub_zero, empty] at exists_point
        cases exists_point
      | succ k =>
        refine induction (Nat.lt_of_succ_lt_succ visited) (k := k) ?_
        rwa [Int.natCast_succ, Int.add_comm, ← Int.sub_sub] at exists_point

theorem steps_lt_two_pow {c e : Nat} (small : c < e * binade + binade) :
    steps c < 2 ^ (52 + e) := by
  rw [Nat.pow_add, show 2 ^ 52 = binade from rfl, ← steps_mul_add e (Nat.le_refl binade) (by omega)]
  exact steps_strictMono small

theorem log2_double_le {n k : Nat} (positive : 0 < n) (small : n < 2 ^ k) :
    (2 * n).log2 ≤ k := by
  have double : 2 * n < 2 ^ (k + 1) := by
    rw [Nat.pow_succ]
    omega
  exact Nat.le_of_lt_succ ((Nat.log2_lt (by omega)).2 double)

/-- On the last grid that the search visits, a point follows before the upper end of the rounding
interval. -/
theorem spacing_lt_gap {code : Nat} (positive : 0 < code) (finite : code < infinityCode) {e : Int}
    (last : e = (Interval.ofCode code).coarsest - (23 : Nat)) :
    (gridSpacing e).1 + (Interval.ofCode code).middle * (gridSpacing e).2 <
      (Interval.ofCode code).high * (gridSpacing e).2 := by
  have magnitude := steps_strictMono positive
  have bits := log2_double_le (show 0 < steps code by omega)
    (steps_lt_two_pow (e := 2046) finite)
  have close := Interval.spacing_le (i := .ofCode code) (show 2 * steps code ≠ 0 by omega)
    (Nat.le_trans bits (by decide))
  rw [← last] at close
  obtain ⟨gap, upper⟩ := Nat.exists_eq_add_of_le (steps_lt_steps_succ code).le
  have magnitudeGap := steps_lt_mul_gap code
  rw [upper, Nat.add_sub_cancel_left, binade_eq] at magnitudeGap
  have scaledGap := Nat.mul_lt_mul_of_pos_right magnitudeGap (denominator_pos e)
  change _ ≤ 2 * steps code * _ at close
  change _ + 2 * steps code * _ < (steps code + steps (code + 1)) * _
  rw [upper]
  generalize gridSpacing e = grid at *
  simp only [Nat.add_mul, Nat.mul_assoc] at *
  omega

/-- The shortest decimal of a positive finite code lies in its rounding interval. -/
theorem shortest_holds {code : Nat} (positive : 0 < code) (finite : code < infinityCode) :
    (Interval.ofCode code).Holds (shortest code) := by
  have previous := steps_strictMono.monotone (Nat.sub_le code 1)
  refine Interval.search_holds searchDepth (k := 23) (by decide)
    (Interval.gridPoint_isSome ?_ (spacing_lt_gap positive finite rfl))
  change steps (code - 1) + steps code ≤ 2 * steps code
  omega

/-- The shortest decimal of a positive finite code rounds to this code. -/
theorem nearestCode_shortest {code : Nat} (positive : 0 < code) (finite : code < infinityCode) :
    nearestCode ((shortest code).significand * 10 ^ (shortest code).exponent.toNat)
      (10 ^ (-(shortest code).exponent).toNat) = code :=
  (shortest_holds positive finite).nearestCode_eq finite.le

end Formulae.Decimal
