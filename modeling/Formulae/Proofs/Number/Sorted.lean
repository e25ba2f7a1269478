import Formulae.Proofs.Number.Comparison

/-!
# Sorted floats

A float is determined by its rank (`rank_injective`), so that a list has only one sorted arrangement:
any arrangement in increasing order is the one that sorting finds (`sorted_eq_of_perm`), and the order
in which the elements come does not matter (`sorted_congr`).
-/

namespace Formulae.Number

theorem rank_injective : Function.Injective rank := by
  intro x y same
  have parts : isNegative x = isNegative y ∧ code x = code y := by
    unfold rank at same
    cases sign : isNegative x <;> cases sign' : isNegative y <;>
      simp only [sign, sign', Bool.false_eq_true, if_false, if_true] at same
    · exact ⟨rfl, by omega⟩
    · omega
    · omega
    · exact ⟨rfl, by omega⟩
  apply ext_of_toBits
  rw [toNat_toBits, toNat_toBits, parts.1, parts.2]

variable {xs ys : List Float}

/-- The list is in the total order. -/
def IsRanked (xs : List Float) : Prop := xs.Pairwise fun x y => rank x ≤ rank y

instance (xs : List Float) : Decidable (IsRanked xs) :=
  inferInstanceAs (Decidable (xs.Pairwise fun x y => rank x ≤ rank y))

theorem sorted_perm (xs : List Float) : (sorted xs).Perm xs := List.mergeSort_perm xs atMost

theorem isRanked_sorted (xs : List Float) : IsRanked (sorted xs) := by
  have ordered : (sorted xs).Pairwise (atMost · ·) := List.pairwise_mergeSort ?_ ?_ xs
  · exact ordered.imp of_decide_eq_true
  · intro x y z first second
    exact decide_eq_true ((of_decide_eq_true first).trans (of_decide_eq_true second))
  · intro x y
    simp only [atMost, Bool.or_eq_true, decide_eq_true_iff]
    exact le_total _ _

/-- Only one arrangement is in order. -/
theorem sorted_eq_of_perm (ranked : IsRanked ys) (perm : ys.Perm xs) : sorted xs = ys :=
  ((sorted_perm xs).trans perm.symm).eq_of_pairwise
    (fun _ _ _ _ before after => rank_injective (before.antisymm after)) (isRanked_sorted xs) ranked

/-- The order in which the elements come does not matter. -/
theorem sorted_congr (perm : xs.Perm ys) : sorted xs = sorted ys :=
  sorted_eq_of_perm (isRanked_sorted ys) ((sorted_perm ys).trans perm.symm)

end Formulae.Number
