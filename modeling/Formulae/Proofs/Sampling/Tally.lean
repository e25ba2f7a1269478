import Mathlib.Algebra.BigOperators.Group.Finset.Basic
import Formulae.Proofs.Number.Place
import Formulae.Proofs.Sampling.Hundredths

/-!
# Every sample is counted once

The weighted values of samples are a tally of their finite values (`IsTally`).  Every finite value is
counted in exactly one place, which is that of its rounding, and the places are in the order in which
the roundings first occur.

The rounded values are told apart as floats and not by how they compare.  The two agree, because
rounding gives neither the undefined float nor the negative zero.

The order of the samples decides the order of the tally and nothing else (`perm_weightedValues`).
-/

namespace Formulae

open Number

/-! ## Lists without repetitions -/

section

variable {α : Type} [DecidableEq α]

/-- The elements without repetitions stand in the order of their first occurrences. -/
theorem pairwise_findIdx_distinct (as : List α) :
    (distinct as).Pairwise fun a b => as.findIdx (· = a) < as.findIdx (· = b) := by
  induction as with
  | nil => exact List.Pairwise.nil
  | cons a as induction =>
    have first : (a :: as).findIdx (· = a) = 0 := by
      rw [List.findIdx_cons, decide_eq_true rfl, cond_true]
    have later {b : α} (among : b ∈ (distinct as).filter (· ≠ a)) :
        (a :: as).findIdx (· = b) = as.findIdx (· = b) + 1 := by
      have differs : a ≠ b := Ne.symm (of_decide_eq_true (List.mem_filter.1 among).2)
      rw [List.findIdx_cons, decide_eq_false differs, cond_false]
    refine List.Pairwise.cons (fun b among => ?_) ?_
    · rw [first, later among]
      exact Nat.succ_pos _
    · refine (induction.filter _).imp_of_mem fun {b c} among among' before => ?_
      rw [later among, later among']
      exact Nat.succ_lt_succ before

theorem perm_distinct {as bs : List α} (same : as.Perm bs) : (distinct as).Perm (distinct bs) := by
  rw [List.perm_ext_iff_of_nodup (nodup_distinct as) (nodup_distinct bs)]
  intro a
  rw [mem_distinct, mem_distinct, same.mem_iff]

/-- The numbers of occurrences add up to the length. -/
theorem sum_countP_distinct (as : List α) :
    ((distinct as).map fun a => as.countP (· = a)).sum = as.length := by
  have sameMembers : (distinct as).toFinset = as.toFinset := by
    ext a
    rw [List.mem_toFinset, List.mem_toFinset, mem_distinct]
  have counts : (fun a => as.countP (· = a)) = fun a => as.count a := by
    funext a
    exact (List.count_eq_countP).symm
  rw [← List.sum_toFinset _ (nodup_distinct as), sameMembers, counts]
  exact List.sum_toFinset_count_eq_length as

end

/-! ## Tallies -/

/-- The finite values of samples. -/
def finiteValues (samples : List Sample) : List Float := (samples.map Prod.snd).filter Float.isFinite

/-- Weighted values that count how often numbers are rounded to each of them. -/
structure IsTally (ys : List Float) (values : List Weighted) : Prop where
  /-- Every number is counted. -/
  complete : ∀ y ∈ ys, ∃ w ∈ values, w.value = hundredths y
  /-- No two values compare equal. -/
  distinct : values.Pairwise fun v w => (v.value == w.value) = false
  /-- No value is undefined or the negative zero. -/
  plain : ∀ w ∈ values, w.value.isNaN = false ∧ w.value ≠ -0
  /-- The values stand in the order in which they first occur. -/
  ordered : values.Pairwise fun v w =>
    ys.findIdx (hundredths · = v.value) < ys.findIdx (hundredths · = w.value)
  /-- A weight is the number of occurrences of its value, which does occur. -/
  counted : ∀ w ∈ values, w.weight = ys.countP (hundredths · = w.value) ∧ 0 < w.weight
  /-- The weights add up to how many numbers there are. -/
  total : (values.map Weighted.weight).sum = ys.length

section

variable {samples samples' : List Sample} {w : Weighted}

theorem length_finiteValues_le (samples : List Sample) :
    (finiteValues samples).length ≤ samples.length :=
  (List.length_filter_le _ _).trans (List.length_map _).le

theorem findIdx_roundedValues (samples : List Sample) (value : Float) :
    (roundedValues samples).findIdx (· = value) =
      (finiteValues samples).findIdx (hundredths · = value) :=
  List.findIdx_map _ _ _

theorem mem_weightedValues_iff : w ∈ weightedValues samples ↔
    (∃ y ∈ finiteValues samples, hundredths y = w.value) ∧
      w.weight = (finiteValues samples).countP (hundredths · = w.value) := by
  have members : ∀ value, value ∈ distinct (roundedValues samples) ↔
      ∃ y ∈ finiteValues samples, hundredths y = value := fun value => by
    rw [mem_distinct]
    exact List.mem_map
  have counts : ∀ value, (roundedValues samples).countP (· = value) =
      (finiteValues samples).countP (hundredths · = value) := fun value => List.countP_map
  rw [weightedValues, List.mem_map]
  constructor
  · rintro ⟨value, among, rfl⟩
    exact ⟨(members value).1 among, counts value⟩
  · rintro ⟨among, weight⟩
    exact ⟨w.value, (members w.value).2 among, congrArg _ ((counts _).trans weight.symm)⟩

/-- A value is the rounding of a finite sample. -/
theorem exists_sample (among : w ∈ weightedValues samples) :
    ∃ s ∈ samples, s.2.isFinite = true ∧ hundredths s.2 = w.value := by
  obtain ⟨⟨y, kept, same⟩, -⟩ := mem_weightedValues_iff.1 among
  obtain ⟨sampled, finite⟩ := List.mem_filter.1 kept
  obtain ⟨s, point, rfl⟩ := List.mem_map.1 sampled
  exact ⟨s, point, finite, same⟩

/-- A value occurs at least once, and its weight is at most the number of samples. -/
theorem weight_of_mem_weightedValues (among : w ∈ weightedValues samples) :
    0 < w.weight ∧ w.weight ≤ samples.length := by
  obtain ⟨⟨y, member, same⟩, weight⟩ := mem_weightedValues_iff.1 among
  rw [weight]
  exact ⟨List.countP_pos_iff.2 ⟨y, member, decide_eq_true same⟩,
    List.countP_le_length.trans (length_finiteValues_le samples)⟩

theorem value_of_mem_weightedValues (among : w ∈ weightedValues samples) :
    w.value.isNaN = false ∧ w.value ≠ -0 := by
  obtain ⟨s, -, finite, same⟩ := exists_sample among
  rw [← same]
  exact ⟨isNaN_hundredths finite, hundredths_ne_negativeZero s.2⟩

theorem sum_weights (samples : List Sample) :
    ((weightedValues samples).map Weighted.weight).sum = (finiteValues samples).length := by
  rw [weightedValues, List.map_map, ← List.length_map (f := hundredths)]
  exact sum_countP_distinct (roundedValues samples)

theorem isTally_weightedValues (samples : List Sample) :
    IsTally (finiteValues samples) (weightedValues samples) where
  complete y among := by
    refine ⟨⟨hundredths y, (finiteValues samples).countP (hundredths · = hundredths y)⟩, ?_, rfl⟩
    exact mem_weightedValues_iff.2 ⟨⟨y, among, rfl⟩, rfl⟩
  distinct := by
    have values : (weightedValues samples).Pairwise fun v w => v.value ≠ w.value :=
      List.pairwise_map.2 (nodup_distinct (roundedValues samples))
    refine values.imp_of_mem fun {v w} among among' differ => ?_
    refine Bool.eq_false_iff.2 fun same => differ ?_
    exact eq_of_beq_of_ne same (value_of_mem_weightedValues among).2
      (value_of_mem_weightedValues among').2
  plain _ among := value_of_mem_weightedValues among
  ordered := by
    refine List.pairwise_map.2 ((pairwise_findIdx_distinct (roundedValues samples)).imp ?_)
    intro value value' before
    rwa [findIdx_roundedValues, findIdx_roundedValues] at before
  counted _ among := ⟨(mem_weightedValues_iff.1 among).2, (weight_of_mem_weightedValues among).1⟩
  total := sum_weights samples

/-- Samples in another order have the same weighted values in another order. -/
theorem perm_weightedValues (same : samples.Perm samples') :
    (weightedValues samples).Perm (weightedValues samples') := by
  have rounded : (roundedValues samples).Perm (roundedValues samples') :=
    ((same.map Prod.snd).filter _).map hundredths
  have weights : (fun value => (roundedValues samples).countP (· = value)) =
      fun value => (roundedValues samples').countP (· = value) :=
    funext fun value => rounded.countP_eq _
  rw [weightedValues, weightedValues]
  refine ((perm_distinct rounded).map _).trans (.of_eq ?_)
  exact List.map_congr_left fun value _ => congrArg (Weighted.mk value) (congrFun weights value)

end

/-- The weighted values are a tally of the finite values, and another order of the samples gives the
same weighted values in another order. -/
theorem weightedValues_tally :
    (∀ samples, IsTally (finiteValues samples) (weightedValues samples)) ∧
      ∀ samples samples' : List Sample, samples.Perm samples' →
        (weightedValues samples).Perm (weightedValues samples') :=
  ⟨isTally_weightedValues, fun _ _ same => perm_weightedValues same⟩

/-- Two values are rounded to zero, one of them from below, two are rounded to one, one is rounded to
infinity, and two are not counted. -/
def mixedSamples : List Sample :=
  [(0, -0.001), (1, 1.004), (2, 1 / 0), (3, -0), (4, 0.996), (5, 0 / 0), (6, 1e307)]

theorem weightedValues_mixedSamples :
    weightedValues mixedSamples = [⟨0, 2⟩, ⟨1, 2⟩, ⟨1 / 0, 1⟩] ∧
      IsTally (finiteValues mixedSamples) (weightedValues mixedSamples) ∧
      mixedSamples.reverse.Perm mixedSamples ∧
      (weightedValues mixedSamples.reverse).Perm (weightedValues mixedSamples) :=
  ⟨by decide +kernel, weightedValues_tally.1 _, List.reverse_perm _,
    weightedValues_tally.2 _ _ (List.reverse_perm _)⟩

end Formulae
