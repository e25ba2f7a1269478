import Mathlib.Data.Real.Basic
import Mathlib.Tactic.FieldSimp
import Formulae.Proofs.Number.Shifts
import Formulae.Proofs.Number.Equality

/-!
# Exact values

`toReal` is the real number that a finite float stands for.  The floats without a value get zero.
Negating is exact (`toReal_neg`).
-/

namespace Formulae.Number

open Float.Model (UnpackedFloat)
open Float.Model.UnpackedFloat

/-- The exact value of a finite float. -/
noncomputable def toReal (x : Float) : ℝ :=
  if x.isFinite then (signedSteps x : ℝ) / stepsPerUnit else 0

theorem stepsPerUnit_ne_zero : (stepsPerUnit : ℝ) ≠ 0 := Nat.cast_ne_zero.2 (by decide)

theorem toReal_of_finite {x : Float} (finite : code x < infinityCode) :
    toReal x = (signedSteps x : ℝ) / stepsPerUnit := by
  rw [toReal, isFinite_eq, decide_eq_true finite, if_pos rfl]

theorem toReal_of_not_finite {x : Float} (infinite : ¬ code x < infinityCode) : toReal x = 0 := by
  rw [toReal, isFinite_eq, decide_eq_false infinite, if_neg Bool.false_ne_true]

/-- A float of a whole number of units. -/
theorem toReal_eq_intCast {x : Float} {n : Int} (finite : code x < infinityCode)
    (units : signedSteps x = n * stepsPerUnit) : toReal x = n := by
  rw [toReal_of_finite finite, units, Int.cast_mul, Int.cast_natCast,
    mul_div_cancel_right₀ _ stepsPerUnit_ne_zero]

/-! ## The literals that rules introduce -/

/-- Up to their signs, these are the literals of derivatives and of the rewritten functions. -/
theorem units_of_listed : ∀ n ∈ [0, 1, 2, 10], code (Float.ofNat n) < infinityCode ∧
    code (-Float.ofNat n) < infinityCode ∧ signedSteps (Float.ofNat n) = n * stepsPerUnit := by
  decide

theorem isFinite_of_listed {n : Nat} (listed : n ∈ [0, 1, 2, 10]) :
    (Float.ofNat n).isFinite = true ∧ (-Float.ofNat n).isFinite = true := by
  obtain ⟨finite, finite', -⟩ := units_of_listed n listed
  rw [isFinite_iff, isFinite_iff]
  exact ⟨finite, finite'⟩

theorem toReal_of_listed {n : Nat} (listed : n ∈ [0, 1, 2, 10]) : toReal (Float.ofNat n) = n := by
  obtain ⟨finite, -, units⟩ := units_of_listed n listed
  rw [toReal_eq_intCast finite units, Int.cast_natCast]

theorem toReal_zero : toReal 0 = 0 := (toReal_of_listed (n := 0) (by decide)).trans Nat.cast_zero

theorem toReal_one : toReal 1 = 1 := (toReal_of_listed (n := 1) (by decide)).trans Nat.cast_one

theorem toReal_two : toReal 2 = 2 := toReal_of_listed (n := 2) (by decide)

theorem toReal_ten : toReal 10 = 10 := toReal_of_listed (n := 10) (by decide)

/-! ## Negation -/

theorem toReal_neg (x : Float) : toReal (-x) = -toReal x := by
  by_cases defined : code x ≤ infinityCode
  · obtain ⟨sameCode, flipped⟩ := neg_of_defined defined
    by_cases finite : code x < infinityCode
    · rw [toReal_of_finite finite, toReal_of_finite (by rwa [sameCode]), signedSteps_eq, flipped,
        sameCode, signed_not, ← signedSteps_eq, Int.cast_neg, neg_div]
    · rw [toReal_of_not_finite finite, toReal_of_not_finite (by rwa [sameCode]), neg_zero]
  · have undefined := neg_of_undefined (Nat.not_le.1 defined)
    rw [toReal_of_not_finite (by omega), toReal_of_not_finite (by omega), neg_zero]

/-! ## Comparison -/

theorem toReal_of_beq_one {x : Float} (same : (x == 1) = true) : toReal x = 1 := by
  rw [eq_one_of_beq same, toReal_one]

end Formulae.Number
