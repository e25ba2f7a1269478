import Formulae.Proofs.Sampling.Extremes
import Formulae.Proofs.Sampling.Range
import Formulae.Proofs.Sampling.Relaxation
import Formulae.Proofs.Sampling.Routes
import Formulae.Sampling.Window

/-!
# Samples that are too great to be rounded

A finite sample above `roundingLimit` is rounded to infinity, because it is multiplied by one hundred
first.  The infinite value is then counted like any other, and its product wins against all finite ones
(`weightedValues_overflow`).

Other samples have finite values only (`AreRoundable.isFinite_value`), and so the extremes are finite.
The typical value is finite unless the sum that it is taken from overflows, since a weight never
increases the quotient (`finite_div_ofNat`).
-/

namespace Formulae

open Number

/-- No finite sample is too great to be rounded. -/
def AreRoundable (samples : List Sample) : Prop :=
  ∀ s ∈ samples, s.2.isFinite = true → s.2.abs ≤ roundingLimit

section

variable {samples : List Sample} {w : Weighted}

theorem AreRoundable.isFinite_value (roundable : AreRoundable samples)
    (among : w ∈ weightedValues samples) : w.value.isFinite = true := by
  obtain ⟨s, point, finite, same⟩ := exists_sample among
  rw [← same]
  exact (isFinite_hundredths_iff finite).2 (roundable s point finite)

/-- All values are finite only if every finite sample can be rounded. -/
theorem areRoundable_of_isFinite (finite : ∀ w ∈ weightedValues samples, w.value.isFinite = true) :
    AreRoundable samples := by
  intro s point finite'
  have kept : s.2 ∈ finiteValues samples :=
    List.mem_filter.2 ⟨List.mem_map_of_mem point, finite'⟩
  obtain ⟨w, among, same⟩ := (isTally_weightedValues samples).complete s.2 kept
  rw [← isFinite_hundredths_iff finite', ← same]
  exact finite w among

theorem AreRoundable.isFinite_extreme {beats : Float → Float → Prop}
    (roundable : AreRoundable samples) (extreme : IsExtreme beats (weightedValues samples) w) :
    w.value.isFinite = true := by
  rcases extreme.eq_or_mem with rfl | ⟨-, among⟩
  · exact isFinite_zero
  · exact roundable.isFinite_value among

/-- The quotient of a finite sum by a number of points is finite. -/
theorem finite_div_ofNat {s : Float} {n : ℕ} (finite : code s < infinityCode) (some : 0 < n)
    (few : n ≤ Range.maxPoints) : code (s / ofNat n) < infinityCode := by
  obtain ⟨finite', same⟩ := toReal_ofNat (few.trans (by decide))
  have nearest := isNearest_div finite finite' (by rw [same]; exact Nat.cast_ne_zero.2 some.ne')
  refine nearest.finite_of_abs_le finite ?_
  rw [same, abs_div, Nat.abs_cast]
  exact div_le_self (abs_nonneg _) (Nat.one_le_cast.2 some)

/-- Some of the values weigh no more than there are samples. -/
theorem totals_heavy_le (samples : List Sample) (required : ℕ) :
    (totals (heavy (weightedValues samples) required)).2 ≤ samples.length := by
  rw [totals_eq]
  calc ((heavy (weightedValues samples) required).map Weighted.weight).sum
      ≤ ((weightedValues samples).map Weighted.weight).sum :=
        sum_weights_heavy_le _ required
    _ = (finiteValues samples).length := sum_weights samples
    _ ≤ samples.length := length_finiteValues_le samples

/-- An average is finite if the sum of the products that it is taken from is. -/
theorem isFinite_weightedAverage {required : ℕ} (few : samples.length ≤ Range.maxPoints)
    (sum : (totals (heavy (weightedValues samples)
      (lastRequirement (weightedValues samples) required))).1.isFinite = true) :
    (weightedAverage (weightedValues samples) required).isFinite = true := by
  rw [weightedAverage, averageFrom_eq, ← lastRequirement]
  have weights := totals_heavy_le samples (lastRequirement (weightedValues samples) required)
  rw [totals_eq] at sum weights
  split
  next => exact isFinite_zero
  next last =>
    rw [isFinite_iff] at sum ⊢
    refine finite_div_ofNat sum ?_ (weights.trans few)
    exact (sum_weights_heavy_pos_iff (Nat.pos_of_ne_zero last)).2 (Nat.min_le_right _ _)

end

/-- The values are finite just if no finite sample is too great to be rounded.  Then the extremes are
finite, and the important values of an expression with these samples are if the sum for the typical one
does not overflow. -/
theorem isFinite_values_iff_areRoundable (samples : List Sample) :
    ((∀ w ∈ weightedValues samples, w.value.isFinite = true) ↔ AreRoundable samples) ∧
      (AreRoundable samples →
        (weightedExtremes samples).1.value.isFinite = true ∧
          (weightedExtremes samples).2.value.isFinite = true ∧
          ∀ (e : Expr) (r : Range), e.samples r = samples →
            (totals (heavy (weightedValues samples)
              (lastRequirement (weightedValues samples) typicalWeight))).1.isFinite = true →
            ∀ v ∈ e.importantValues r, v.isFinite = true) := by
  refine ⟨⟨areRoundable_of_isFinite, fun roundable w among => roundable.isFinite_value among⟩,
    fun roundable => ?_⟩
  obtain ⟨least, greatest⟩ := isExtreme_weightedExtremes samples
  have finiteLeast := roundable.isFinite_extreme least
  have finiteGreatest := roundable.isFinite_extreme greatest
  refine ⟨finiteLeast, finiteGreatest, ?_⟩
  rintro e r rfl sum
  have few : (e.samples r).length ≤ Range.maxPoints :=
    (e.length_samples r).trans_le r.count_le_maxPoints
  rw [Expr.importantValues]
  simp only [List.forall_mem_cons]
  exact ⟨finiteLeast, isFinite_weightedAverage few sum, finiteGreatest, fun _ none => nomatch none⟩

/-- Great samples that can be rounded, and the identity at whole numbers. -/
theorem isFinite_values_of_great_samples :
    let samples : List Sample := [(0, 1e306), (1, -1e20), (2, 1 / 0)]
    AreRoundable samples ∧ (∀ w ∈ weightedValues samples, w.value.isFinite = true) ∧
      (weightedExtremes samples).2 = ⟨1e306, 1⟩ ∧
      (weightedExtremes samples).2.value.isFinite = true ∧
      AreRoundable ((Expr.var "x").samples ⟨-1, 1, 1⟩) ∧
      ∀ v ∈ (Expr.var "x").importantValues ⟨-1, 1, 1⟩, v.isFinite = true := by
  have great : AreRoundable [(0, 1e306), (1, -1e20), (2, 1 / 0)] := by
    unfold AreRoundable
    decide +kernel
  have whole : AreRoundable ((Expr.var "x").samples ⟨-1, 1, 1⟩) := by
    unfold AreRoundable
    decide +kernel
  exact ⟨great, (isFinite_values_iff_areRoundable _).1.2 great, by decide +kernel,
    ((isFinite_values_iff_areRoundable _).2 great).2.1, whole,
    ((isFinite_values_iff_areRoundable _).2 whole).2.2 _ _ rfl (by decide +kernel)⟩

/-- A finite sample that is rounded to infinity. -/
theorem weightedValues_overflow :
    (1e307 : Float).isFinite = true ∧ weightedValues [(0, 1e307)] = [⟨1 / 0, 1⟩] ∧
      (1 / 0 : Float).isFinite = false ∧ (weightedExtremes [(0, 1e307)]).2 = ⟨1 / 0, 1⟩ ∧
      ¬ ∀ samples : List Sample, ∀ w ∈ weightedValues samples, w.value.isFinite = true := by
  have infinite : weightedValues [(0, 1e307)] = [⟨1 / 0, 1⟩] := by decide +kernel
  refine ⟨by decide +kernel, infinite, by decide +kernel, by decide +kernel, fun finite => ?_⟩
  have value := finite [(0, 1e307)] ⟨1 / 0, 1⟩ (by rw [infinite]; exact List.mem_cons_self)
  exact absurd value (by decide)

end Formulae
