import Formulae.Proofs.Sampling.Extremes
import Formulae.Proofs.Sampling.Range
import Formulae.Proofs.Sampling.Relaxation

/-!
# Weighted values of bounded samples

Samples of magnitude at most `2 ^ 997` are rounded to hundredths of magnitude at most `2 ^ 998`, and a
hundredth that is not zero is not close to zero (`isModerate_hundredths`).  No product and no sum of
such values overflows, as there are at most `maxPoints` of them.

Sums and averages are bounded without any rounding error.  A bound whose multiples by weights are
floats (`IsBound`) is kept by every step of a sum (`totals_between`), and so by the mean
(`weightedMean_between`) and the average (`weightedAverage_between`).  Taking zero for one of the bounds
gives the sign of the average.

The extremes have the least and the greatest exact product (`weightedExtremes_of_moderate`).
-/

namespace Formulae

open Number

/-! ## Bounds -/

/-- All multiples by weights are floats. -/
def IsBound (v : ℝ) : Prop := ∀ n ≤ Range.maxPoints, IsFloat (n * v)

namespace IsBound

variable {v : ℝ}

protected theorem zero : IsBound 0 := fun n _ => by
  rw [mul_zero]
  exact isFloat_zero

protected theorem neg (bound : IsBound v) : IsBound (-v) := fun n few => by
  rw [mul_neg]
  exact (bound n few).neg

theorem two_pow {k : ℕ} (limit : k ≤ 998) : IsBound (2 ^ k) := fun n few => by
  have small : n ≤ 2 ^ 24 := few
  rw [← zpow_natCast]
  refine isFloat_mul_two_zpow (small.trans (by decide)) (by omega) ?_
  calc (n : ℝ) * 2 ^ (k : ℤ)
      ≤ 2 ^ (24 : ℤ) * 2 ^ (998 : ℤ) := by
        refine mul_le_mul (by exact_mod_cast small) ?_ (zpow_nonneg two_pos.le _) (by norm_num)
        exact zpow_le_zpow_right₀ one_le_two (by omega)
    _ = 2 ^ (1022 : ℤ) := by rw [← zpow_add₀ two_ne_zero]; rfl
    _ ≤ 2 ^ (1023 : ℤ) := zpow_le_zpow_right₀ one_le_two (by norm_num)

theorem isFloat (bound : IsBound v) : IsFloat v := by
  have one := bound 1 (by decide)
  rwa [Nat.cast_one, one_mul] at one

end IsBound

/-! ## Hundredths -/

/-- A finite number that is not too great, and zero or not too close to zero. -/
structure IsModerate (x : Float) : Prop where
  /-- It is finite. -/
  finite : code x < infinityCode
  /-- It is not too great. -/
  bounded : |toReal x| ≤ 2 ^ 998
  /-- It is zero or not too close to zero. -/
  apart : toReal x ≠ 0 → 1 / 2 ^ 7 ≤ |toReal x|

theorem isModerate_zero : IsModerate 0 where
  finite := by decide
  bounded := by
    rw [toReal_zero, abs_zero]
    positivity
  apart nonzero := absurd toReal_zero nonzero

/-- Rounding to hundredths doubles the magnitude at most, and leaves zero or a hundredth. -/
theorem isModerate_hundredths {y : Float} (finite : code y < infinityCode)
    (bounded : |toReal y| ≤ 2 ^ 997) : IsModerate (hundredths y) := by
  unfold hundredths
  -- The product with one hundred.
  obtain ⟨product, product_le⟩ := (isNearest_mul finite finite_hundred).abs_toReal_le
    (isFloat_two_pow (k := 1004) (by norm_num)) (by
      rw [toReal_hundred, abs_mul, abs_of_pos (by norm_num : (0 : ℝ) < 100)]
      calc |toReal y| * 100 ≤ 2 ^ 997 * 2 ^ 7 :=
            mul_le_mul bounded (by norm_num) (by norm_num) (by positivity)
        _ = 2 ^ 1004 := (pow_add 2 997 7).symm)
  obtain ⟨whole, whole_le, whole_apart⟩ := roundHalfAway_spec product (by norm_num) product_le
  generalize roundHalfAway (y * 100) = r at *
  -- The quotient by one hundred.
  have nearest := isNearest_div whole finite_hundred (by rw [toReal_hundred]; norm_num)
  have magnitude : |toReal r / toReal 100| = |toReal r| / 100 := by
    rw [toReal_hundred, abs_div, abs_of_pos (by norm_num : (0 : ℝ) < 100)]
  obtain ⟨quotient, quotient_le⟩ := nearest.abs_toReal_le
    (isFloat_two_pow (k := 998) (by norm_num)) (by
      rw [magnitude, div_le_iff₀ (by norm_num)]
      calc |toReal r| ≤ 2 ^ 1004 := whole_le
        _ = 2 ^ 998 * 2 ^ 6 := pow_add 2 998 6
        _ ≤ 2 ^ 998 * 100 := mul_le_mul_of_nonneg_left (by norm_num) (by positivity))
  -- Adding zero takes the sign of a zero away and nothing else.
  have kept := isNearest_add quotient (y := 0) (by decide)
  rw [toReal_zero, add_zero] at kept
  obtain ⟨finite', same⟩ := kept.exact (isFloat_toReal quotient)
  refine ⟨finite', same ▸ quotient_le, fun nonzero => ?_⟩
  rw [same]
  refine nearest.le_abs_toReal quotient (isFloat_one_div_two_pow (by norm_num)) ?_
  have someWhole : toReal r ≠ 0 := by
    intro zero
    refine nonzero (same.trans ?_)
    rw [zero, zero_div] at nearest
    exact (nearest.exact isFloat_zero).2
  rw [magnitude]
  exact div_le_div₀ (abs_nonneg _) (whole_apart someWhole) (by norm_num) (by norm_num)

/-! ## Weights -/

/-- A moderate value that occurs, as often as a range has points at most. -/
structure Weighted.IsModerate (w : Weighted) : Prop where
  /-- The value is moderate. -/
  value : Formulae.IsModerate w.value
  /-- It occurs. -/
  occurs : 0 < w.weight
  /-- It occurs at most once at each point. -/
  few : w.weight ≤ Range.maxPoints

namespace Weighted

theorem isModerate_default : ({} : Weighted).IsModerate where
  value := isModerate_zero
  occurs := Nat.one_pos
  few := by decide

namespace IsModerate

variable {w : Weighted} {lo hi : ℝ}

theorem ofNat_weight (moderate : w.IsModerate) :
    code (ofNat w.weight) < infinityCode ∧ toReal (ofNat w.weight) = w.weight :=
  toReal_ofNat (moderate.few.trans (by decide))

theorem weight_pos (moderate : w.IsModerate) : (0 : ℝ) < w.weight := Nat.cast_pos.2 moderate.occurs

theorem isNearest_product (moderate : w.IsModerate) :
    IsNearest w.product (w.weight * toReal w.value) := by
  obtain ⟨finite, same⟩ := moderate.ofNat_weight
  have nearest := isNearest_mul moderate.value.finite finite
  rwa [same, mul_comm] at nearest

/-- A product lies between the multiples of the bounds of its value. -/
theorem product_between (moderate : w.IsModerate) (lower : IsBound lo) (upper : IsBound hi)
    (least : lo ≤ toReal w.value) (greatest : toReal w.value ≤ hi) :
    code w.product < infinityCode ∧ w.weight * lo ≤ toReal w.product ∧
      toReal w.product ≤ w.weight * hi :=
  moderate.isNearest_product.between (lower _ moderate.few) (upper _ moderate.few)
    (mul_le_mul_of_nonneg_left least moderate.weight_pos.le)
    (mul_le_mul_of_nonneg_left greatest moderate.weight_pos.le)

theorem value_between (moderate : w.IsModerate) :
    -2 ^ 998 ≤ toReal w.value ∧ toReal w.value ≤ 2 ^ 998 := abs_le.1 moderate.value.bounded

theorem product_finite (moderate : w.IsModerate) : code w.product < infinityCode :=
  (moderate.product_between (IsBound.two_pow le_rfl).neg (IsBound.two_pow le_rfl)
    moderate.value_between.1 moderate.value_between.2).1

/-- A product that is not zero is not rounded to zero. -/
theorem one_div_le_abs_product (moderate : w.IsModerate) (nonzero : toReal w.value ≠ 0) :
    1 / 2 ^ 7 ≤ |toReal w.product| := by
  refine moderate.isNearest_product.le_abs_toReal moderate.product_finite
    (isFloat_one_div_two_pow (by norm_num)) ?_
  have once : (1 : ℝ) ≤ w.weight := Nat.one_le_cast.2 moderate.occurs
  rw [abs_mul, abs_of_pos moderate.weight_pos]
  exact (moderate.value.apart nonzero).trans (le_mul_of_one_le_left (abs_nonneg _) once)

theorem product_ne_zero (moderate : w.IsModerate) (nonzero : toReal w.value ≠ 0) :
    toReal w.product ≠ 0 := by
  intro zero
  have apart := moderate.one_div_le_abs_product nonzero
  rw [zero, abs_zero] at apart
  exact absurd apart (by norm_num)

theorem product_nonpos (moderate : w.IsModerate) (nonpos : toReal w.value ≤ 0) :
    toReal w.product ≤ 0 :=
  moderate.isNearest_product.ge_of_ge moderate.product_finite isFloat_zero
    (mul_nonpos_of_nonneg_of_nonpos moderate.weight_pos.le nonpos)

theorem product_nonneg (moderate : w.IsModerate) (nonneg : 0 ≤ toReal w.value) :
    0 ≤ toReal w.product :=
  moderate.isNearest_product.le_of_le moderate.product_finite isFloat_zero
    (mul_nonneg moderate.weight_pos.le nonneg)

/-- A product has the sign of its value. -/
theorem product_nonpos_iff (moderate : w.IsModerate) :
    toReal w.product ≤ 0 ↔ toReal w.value ≤ 0 := by
  refine ⟨fun nonpos => ?_, moderate.product_nonpos⟩
  by_contra above
  rw [not_le] at above
  exact moderate.product_ne_zero above.ne' (nonpos.antisymm (moderate.product_nonneg above.le))

theorem product_nonneg_iff (moderate : w.IsModerate) :
    0 ≤ toReal w.product ↔ 0 ≤ toReal w.value := by
  refine ⟨fun nonneg => ?_, moderate.product_nonneg⟩
  by_contra below
  rw [not_le] at below
  exact moderate.product_ne_zero below.ne ((moderate.product_nonpos below.le).antisymm nonneg)

end IsModerate

end Weighted

/-- Bounded samples have moderate weighted values, and their weights are those of at most all points. -/
theorem weightedValues_spec {samples : List Sample} (few : samples.length ≤ Range.maxPoints)
    (bounded : ∀ s ∈ samples, s.2.isFinite = true → |toReal s.2| ≤ 2 ^ 997) :
    (∀ w ∈ weightedValues samples, w.IsModerate) ∧
      ((weightedValues samples).map Weighted.weight).sum ≤ Range.maxPoints := by
  refine ⟨fun w among => ?_,
    (sum_weights samples).trans_le ((length_finiteValues_le samples).trans few)⟩
  obtain ⟨occurs, atMost⟩ := weight_of_mem_weightedValues among
  obtain ⟨s, point, finite, same⟩ := exists_sample among
  refine ⟨?_, occurs, atMost.trans few⟩
  rw [← same]
  exact isModerate_hundredths (isFinite_iff.1 finite) (bounded s point finite)

/-! ## Extremes -/

/-- The extremes of moderate values are among them or the default, and their products are the least
and the greatest. -/
theorem weightedExtremes_of_moderate {samples : List Sample}
    (moderate : ∀ w ∈ {} :: weightedValues samples, w.IsModerate) :
    ∃ least ∈ {} :: weightedValues samples, ∃ greatest ∈ {} :: weightedValues samples,
      weightedExtremes samples = (least, greatest) ∧ ∀ w ∈ {} :: weightedValues samples,
        toReal least.product ≤ toReal w.product ∧ toReal w.product ≤ toReal greatest.product := by
  obtain ⟨least, greatest⟩ := isExtreme_weightedExtremes samples
  have defined : ∀ w ∈ weightedValues samples, w.product.isNaN = false := fun w among =>
    isNaN_eq_false_iff.2 (moderate w (List.mem_cons_of_mem _ among)).product_finite.le
  refine ⟨_, least.mem, _, greatest.mem, rfl, fun w among => ⟨?_, ?_⟩⟩
  · have notLess := least.not_beats isOrderOf_depth defined w among
    rwa [lt_iff (moderate w among).product_finite (moderate _ least.mem).product_finite,
      not_lt] at notLess
  · have notMore := greatest.not_beats isOrderOf_height defined w among
    rwa [gt_iff_lt, lt_iff (moderate _ greatest.mem).product_finite
      (moderate w among).product_finite, not_lt] at notMore

theorem toReal_product_default : toReal ({} : Weighted).product = 0 := by
  rw [product_default, toReal_zero]

/-! ## Averages -/

section

variable {values : List Weighted} {lo hi : ℝ}

/-- One step of a sum keeps the bounds of a sum. -/
theorem add_product_between {w : Weighted} {s : Float} {n : ℕ} (moderate : w.IsModerate)
    (lower : IsBound lo) (upper : IsBound hi) (least : lo ≤ toReal w.value)
    (greatest : toReal w.value ≤ hi) (few : n + w.weight ≤ Range.maxPoints)
    (finite : code s < infinityCode) (least' : n * lo ≤ toReal s) (greatest' : toReal s ≤ n * hi) :
    code (s + w.product) < infinityCode ∧ (n + w.weight : ℕ) * lo ≤ toReal (s + w.product) ∧
      toReal (s + w.product) ≤ (n + w.weight : ℕ) * hi := by
  obtain ⟨finite', productLeast, productGreatest⟩ :=
    moderate.product_between lower upper least greatest
  refine (isNearest_add finite finite').between (lower _ few) (upper _ few) ?_ ?_
  · rw [Nat.cast_add, add_mul]
    exact add_le_add least' productLeast
  · rw [Nat.cast_add, add_mul]
    exact add_le_add greatest' productGreatest

/-- The values, all moderate, lie between two bounds, and their weights are not too many. -/
structure AreBetween (lo hi : ℝ) (values : List Weighted) : Prop where
  /-- All values are moderate. -/
  moderate : ∀ w ∈ values, w.IsModerate
  /-- All values are at least the lower bound. -/
  least : ∀ w ∈ values, lo ≤ toReal w.value
  /-- All values are at most the upper bound. -/
  greatest : ∀ w ∈ values, toReal w.value ≤ hi
  /-- The weights are not too many. -/
  few : (values.map Weighted.weight).sum ≤ Range.maxPoints

theorem AreBetween.heavy (between : AreBetween lo hi values) (weight : ℕ) :
    AreBetween lo hi (heavy values weight) where
  moderate w member := between.moderate w (List.mem_of_mem_filter member)
  least w member := between.least w (List.mem_of_mem_filter member)
  greatest w member := between.greatest w (List.mem_of_mem_filter member)
  few := (sum_weights_heavy_le values weight).trans between.few

/-- A sum of products lies between the multiples of the bounds by the sum of the weights. -/
theorem totals_between (lower : IsBound lo) (upper : IsBound hi)
    (between : AreBetween lo hi values) :
    (totals values).2 ≤ Range.maxPoints ∧ code (totals values).1 < infinityCode ∧
      (totals values).2 * lo ≤ toReal (totals values).1 ∧
      toReal (totals values).1 ≤ (totals values).2 * hi := by
  -- The induction is on the values still to come, from any sum so far that keeps the bounds.
  have from_sum : ∀ (s : Float) (n : ℕ), code s < infinityCode → n * lo ≤ toReal s →
      toReal s ≤ n * hi → n + (values.map Weighted.weight).sum ≤ Range.maxPoints →
      let sums := values.foldl (fun sums w => (sums.1 + w.product, sums.2 + w.weight)) (s, n)
      sums.2 ≤ Range.maxPoints ∧ code sums.1 < infinityCode ∧ sums.2 * lo ≤ toReal sums.1 ∧
        toReal sums.1 ≤ sums.2 * hi := by
    obtain ⟨moderate, least, greatest, -⟩ := between
    induction values with
    | nil => exact fun s n finite least' greatest' few => ⟨few, finite, least', greatest'⟩
    | cons w ws induction =>
      intro s n finite least' greatest' few
      rw [List.map_cons, List.sum_cons, ← Nat.add_assoc] at few
      obtain ⟨finite', sumLeast, sumGreatest⟩ := add_product_between
        (moderate w List.mem_cons_self) lower upper (least w List.mem_cons_self)
        (greatest w List.mem_cons_self) (Nat.le_of_add_right_le few) finite least' greatest'
      exact induction (fun v member => moderate v (List.mem_cons_of_mem _ member))
        (fun v member => least v (List.mem_cons_of_mem _ member))
        (fun v member => greatest v (List.mem_cons_of_mem _ member)) _ _ finite' sumLeast
        sumGreatest few
  refine from_sum 0 0 (by decide) ?_ ?_ ((Nat.zero_add _).trans_le between.few)
  · rw [Nat.cast_zero, zero_mul, toReal_zero]
  · rw [Nat.cast_zero, zero_mul, toReal_zero]

theorem weightedMean_between (lower : IsBound lo) (upper : IsBound hi)
    (between : AreBetween lo hi values) (some : 0 < (values.map Weighted.weight).sum) :
    code (weightedMean values) < infinityCode ∧ lo ≤ toReal (weightedMean values) ∧
      toReal (weightedMean values) ≤ hi := by
  obtain ⟨few, finite, least, greatest⟩ := totals_between lower upper between
  unfold weightedMean
  rw [totals_eq] at few finite least greatest
  generalize (values.map Weighted.weight).sum = weight at *
  have positive : (0 : ℝ) < weight := Nat.cast_pos.2 some
  obtain ⟨finite', same⟩ := toReal_ofNat (few.trans (by decide))
  have nearest := isNearest_div finite finite' (by rw [same]; exact positive.ne')
  rw [same] at nearest
  refine nearest.between lower.isFloat upper.isFloat ?_ ?_
  · rwa [le_div_iff₀ positive, mul_comm]
  · rwa [div_le_iff₀ positive, mul_comm]

/-- An average lies between bounds of the values that have zero between them. -/
theorem weightedAverage_between (lower : IsBound lo) (upper : IsBound hi) (nonpos : lo ≤ 0)
    (nonneg : 0 ≤ hi) (between : AreBetween lo hi values) (required : ℕ) :
    code (weightedAverage values required) < infinityCode ∧
      lo ≤ toReal (weightedAverage values required) ∧
      toReal (weightedAverage values required) ≤ hi := by
  rw [weightedAverage, averageFrom_eq]
  split
  next =>
    rw [toReal_zero]
    exact ⟨finite_zero, nonpos, nonneg⟩
  next last =>
    refine weightedMean_between lower upper (between.heavy _) ?_
    exact (sum_weights_heavy_pos_iff (Nat.pos_of_ne_zero last)).2 (Nat.min_le_right _ _)

end

end Formulae
