import Mathlib.Algebra.Order.BigOperators.Group.List
import Formulae.Proofs.Number.Place
import Formulae.Sampling.Weighted

/-!
# Where the requirement of an average ends

While no value has the required weight, the requirement drops by one.  It ends at the greatest weight,
or at once if it is no greater than that (`lastRequirement`).  The average is then the mean of the
values of at least this weight, and zero if all weights are zero (`averageFrom_eq`).

Above the greatest weight no value is left, so the weights add up to zero.  From one up to the greatest
weight some value is left, so they do not (`sum_weights_heavy_pos_iff`).
-/

namespace Formulae

open Number

/-- The greatest weight, which is zero if there are no values. -/
def greatestWeight (values : List Weighted) : ℕ := (values.map Weighted.weight).foldr max 0

/-- The values of at least a weight. -/
def heavy (values : List Weighted) (weight : ℕ) : List Weighted :=
  values.filter fun w => weight ≤ w.weight

/-- The sum of the products, from the left to the right, divided by the sum of the weights. -/
def weightedMean (values : List Weighted) : Float :=
  (values.map Weighted.product).foldl (· + ·) 0 / ofNat (values.map Weighted.weight).sum

/-- The requirement that an average ends at. -/
def lastRequirement (values : List Weighted) (required : ℕ) : ℕ :=
  min (max required 1) (greatestWeight values)

section

variable {values : List Weighted} {required : ℕ}

/-- The two sums of a pass over the values do not depend on each other. -/
theorem totals_eq (values : List Weighted) :
    totals values =
      ((values.map Weighted.product).foldl (· + ·) 0, (values.map Weighted.weight).sum) := by
  -- The induction is on the values still to come, from any sums so far.
  have from_sums : ∀ (s : Float) (n : ℕ),
      values.foldl (fun sums w => (sums.1 + w.product, sums.2 + w.weight)) (s, n) =
        ((values.map Weighted.product).foldl (· + ·) s, n + (values.map Weighted.weight).sum) := by
    induction values with
    | nil => exact fun s n => rfl
    | cons w ws induction =>
      intro s n
      rw [List.foldl_cons, induction, List.map_cons, List.foldl_cons, List.map_cons,
        List.sum_cons, Nat.add_assoc]
  rw [totals, from_sums, Nat.zero_add]

theorem le_greatestWeight_iff (some : 0 < required) :
    required ≤ greatestWeight values ↔ ∃ w ∈ values, required ≤ w.weight := by
  induction values with
  | nil => simp [greatestWeight, some.ne']
  | cons w ws induction =>
    change required ≤ max w.weight (greatestWeight ws) ↔ _
    rw [le_max_iff, induction, List.exists_mem_cons_iff]

/-- Only down from the greatest weight is there something to average. -/
theorem sum_weights_heavy_pos_iff (some : 0 < required) :
    0 < ((heavy values required).map Weighted.weight).sum ↔ required ≤ greatestWeight values := by
  rw [le_greatestWeight_iff some, Nat.pos_iff_ne_zero, ne_eq, List.sum_eq_zero_iff]
  simp only [List.forall_mem_map, not_forall, heavy, List.mem_filter, decide_eq_true_iff]
  constructor
  · rintro ⟨w, ⟨among, weight⟩, -⟩
    exact ⟨w, among, weight⟩
  · rintro ⟨w, among, weight⟩
    exact ⟨w, ⟨among, weight⟩, by omega⟩

theorem sum_weights_heavy_le (values : List Weighted) (weight : ℕ) :
    ((heavy values weight).map Weighted.weight).sum ≤ (values.map Weighted.weight).sum :=
  (List.filter_sublist.map _).sum_le_sum fun _ _ => Nat.zero_le _

theorem averageFrom_succ (values : List Weighted) (required : ℕ) :
    averageFrom values (required + 1) =
      if required + 1 ≤ greatestWeight values then weightedMean (heavy values (required + 1))
      else averageFrom values required := by
  have sums := totals_eq (heavy values (required + 1))
  rw [heavy] at sums
  rw [averageFrom, sums]
  exact if_congr (sum_weights_heavy_pos_iff required.succ_pos) rfl rfl

/-- The average from a requirement down is the mean at the requirement or at the greatest weight. -/
theorem averageFrom_eq (values : List Weighted) (required : ℕ) :
    averageFrom values required =
      if min required (greatestWeight values) = 0 then 0
      else weightedMean (heavy values (min required (greatestWeight values))) := by
  induction required with
  | zero => rw [averageFrom, Nat.zero_min, if_pos rfl]
  | succ required induction =>
    rw [averageFrom_succ]
    split
    next found => rw [min_eq_left found, if_neg required.succ_ne_zero]
    next above =>
      have beyond : greatestWeight values ≤ required := by omega
      rw [induction, min_eq_right beyond, min_eq_right (beyond.trans required.le_succ)]

theorem lastRequirement_eq_zero_iff :
    lastRequirement values required = 0 ↔ greatestWeight values = 0 := by
  unfold lastRequirement
  omega

end

/-- An average is the mean of the values of at least the last requirement, and zero if all weights are
zero.  At every requirement above the last one the weights add up to zero, and at the last one to a
divisor above zero, unless all weights are zero. -/
theorem weightedAverage_eq (values : List Weighted) (required : ℕ) :
    weightedAverage values required =
        (if greatestWeight values = 0 then 0
          else weightedMean (heavy values (lastRequirement values required))) ∧
      (∀ r, lastRequirement values required < r → r ≤ max required 1 →
        (totals (heavy values r)).2 = 0) ∧
      (greatestWeight values ≠ 0 →
        0 < (totals (heavy values (lastRequirement values required))).2 ∧
          0 < ofNat (totals (heavy values (lastRequirement values required))).2) := by
  refine ⟨?_, fun r above atMost => ?_, fun some => ?_⟩
  · rw [weightedAverage, averageFrom_eq]
    exact if_congr lastRequirement_eq_zero_iff rfl rfl
  · rw [totals_eq]
    refine Nat.eq_zero_of_not_pos ?_
    rw [sum_weights_heavy_pos_iff (Nat.zero_lt_of_lt above)]
    unfold lastRequirement at above
    omega
  · have last : 0 < lastRequirement values required :=
      Nat.pos_of_ne_zero (mt lastRequirement_eq_zero_iff.1 some)
    have positive : 0 < (totals (heavy values (lastRequirement values required))).2 := by
      rw [totals_eq, sum_weights_heavy_pos_iff last]
      exact Nat.min_le_right _ _
    exact ⟨positive, ofNat_pos positive⟩

/-- The requirement drops from five to three, as two values are too light. -/
theorem weightedAverage_relaxed :
    let values : List Weighted := [⟨2, 3⟩, ⟨10, 1⟩, ⟨7, 0⟩, ⟨4, 3⟩]
    greatestWeight values ≠ 0 ∧ lastRequirement values 5 = 3 ∧
      weightedAverage values 5 = weightedMean [⟨2, 3⟩, ⟨4, 3⟩] ∧ weightedAverage values 5 = 3 ∧
      (totals (heavy values 4)).2 = 0 ∧ 0 < ofNat (totals (heavy values 3)).2 :=
  ⟨by decide, by decide, (weightedAverage_eq _ 5).1, by decide +kernel,
    (weightedAverage_eq _ 5).2.1 4 (by decide) (by decide),
    ((weightedAverage_eq _ 5).2.2 (by decide)).2⟩

end Formulae
