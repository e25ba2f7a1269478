import Formulae.Proofs.Number.Steps

/-!
# Exact shifts

A finite float is a whole number of steps, `signedSteps`, and a mantissa times a power of two
(`exists_parts`).

Rounding moves a mantissa to the exponent that fits its magnitude.  Where only zeros are shifted
away, nothing is lost on the way (`roundWithAccuracy_exact`).
-/

namespace Formulae.Number

open Float.Model (UnpackedFloat totalExponent)
open Float.Model.UnpackedFloat hiding round normalize

/-- The exact value of a finite float in steps. -/
def signedSteps (x : Float) : Int :=
  if isNegative x then -(steps (code x) : Int) else steps (code x)

/-! ## Rounding without a loss -/

theorem log2_mul_two_pow {n : Nat} (positive : 0 < n) (k : Nat) :
    (n * 2 ^ k).log2 = n.log2 + k := by
  have nonzero : n ≠ 0 := positive.ne'
  have lower := Nat.log2_self_le nonzero
  have upper := @Nat.lt_log2_self n
  refine (Nat.log2_eq_iff (Nat.mul_ne_zero nonzero (Nat.two_pow_pos k).ne')).2 ⟨?_, ?_⟩
  · rw [Nat.pow_add]
    exact Nat.mul_le_mul_right _ lower
  · rw [show n.log2 + k + 1 = n.log2 + 1 + k by omega, Nat.pow_add]
    exact Nat.mul_lt_mul_of_pos_right upper (Nat.two_pow_pos k)

theorem targetExponent_eq (e : Int) :
    Float.Model.Format.binary64.targetExponent e = max (e - 53) (-1074) := rfl

/-- Shifting away zeros leaves no residue. -/
theorem shiftRight_exact (q k : Nat) :
    (ExtendedMantissa.mk (q * 2 ^ k) false false) >>> k = ⟨q, false, false⟩ := by
  induction k generalizing q with
  | zero =>
    rw [Nat.pow_zero, Nat.mul_one]
    rfl
  | succ k induction =>
    have shifted := induction (q * 2)
    rw [show q * 2 ^ (k + 1) = q * 2 * 2 ^ k by rw [Nat.pow_succ]; ring]
    change
      ExtendedMantissa.shiftRightOne (ExtendedMantissa.mk (q * 2 * 2 ^ k) false false >>> k) = _
    rw [shifted]
    simp [ExtendedMantissa.shiftRightOne]

theorem shiftToTargetExponent_exact {q j : Nat} {e : Int}
    (target : Float.Model.Format.binary64.targetExponent (totalExponent (q * 2 ^ j) e) = e + j) :
    shiftToTargetExponent .binary64 (q * 2 ^ j) e .exact = (⟨q, false, false⟩, e + j) := by
  unfold shiftToTargetExponent shiftToExponent
  dsimp only
  rw [target, show (e + j - e).toNat = j by omega]
  exact congrArg (fun em => (em, e + (j : Int))) (shiftRight_exact q j)

/-- A mantissa that is moved up to its target exponent without a loss is not rounded. -/
theorem roundWithAccuracy_exact {s : Sign} {q j : Nat} {e : Int} (positive : 0 < q)
    (target : Float.Model.Format.binary64.targetExponent (totalExponent (q * 2 ^ j) e) = e + j) :
    roundWithAccuracy .binary64 s (q * 2 ^ j) e .exact = .finite s q (e + j) positive := by
  have again : shiftToTargetExponent .binary64 q (e + j) .exact = (⟨q, false, false⟩, e + j) := by
    have same : totalExponent (q * 2 ^ j) e = totalExponent q (e + j) := by
      unfold totalExponent
      rw [log2_mul_two_pow positive]
      push_cast
      ring
    have shifted := shiftToTargetExponent_exact (q := q) (j := 0) (e := e + j)
    rw [Nat.pow_zero, Nat.mul_one, ← same, target, Int.natCast_zero, Int.add_zero] at shifted
    exact shifted rfl
  have rounded : ExtendedMantissa.roundedMantissa ⟨q, false, false⟩ = q := rfl
  unfold roundWithAccuracy
  rw [shiftToTargetExponent_exact target]
  dsimp only
  rw [rounded, again]
  exact dif_neg positive.ne'

/-! ## Parts -/

/-- The mantissa and the exponent of a finite code that is not zero.  The mantissa is large, or the
exponent is the least one. -/
theorem exists_parts {c : Nat} (nonzero : c ≠ 0) (finite : c < infinityCode) :
    ∃ m k : Nat, ∃ positive : 0 < m, ((k = 0 ∨ binade ≤ m) ∧ m < 2 * binade) ∧
      m * 2 ^ k = steps c ∧
      ∀ negative, parts negative c = .finite (sign negative) m (k - 1074 : Int) positive := by
  by_cases small : c < binade
  · refine ⟨c, 0, Nat.pos_of_ne_zero nonzero, ⟨Or.inl rfl, by omega⟩, ?_, ?_⟩
    · rw [steps_of_lt small, Nat.pow_zero, Nat.mul_one]
    · exact fun negative => parts_subnormal (Nat.pos_of_ne_zero nonzero) small
  · have large := Nat.not_lt.1 small
    obtain ⟨k, quotient⟩ := Nat.exists_eq_add_of_lt (Nat.div_pos large binade_pos)
    rw [Nat.zero_add] at quotient
    have remainder := Nat.mod_lt c binade_pos
    refine ⟨binade + c % binade, k, Nat.add_pos_left binade_pos _,
      ⟨Or.inr (Nat.le_add_right _ _), by omega⟩, (steps_of_quotient quotient).symm,
      fun negative => ?_⟩
    rw [parts_normal large finite]
    congr 1
    rw [← Int.natCast_ediv, quotient]
    omega

/-- The signed value of a sign and a magnitude. -/
def signed (negative : Bool) (magnitude : Nat) : Int :=
  if negative then -(magnitude : Int) else magnitude

theorem signedSteps_eq (x : Float) : signedSteps x = signed (isNegative x) (steps (code x)) := rfl

theorem apply_sign (negative : Bool) (n : Nat) : (sign negative).apply n = signed negative n := by
  cases negative with
  | false => rfl
  | true => rfl

theorem natAbs_signed (negative : Bool) (n : Nat) : (signed negative n).natAbs = n := by
  cases negative with
  | false => rfl
  | true => exact Int.natAbs_neg n

theorem signed_zero (negative : Bool) : signed negative (steps 0) = 0 := by
  cases negative <;> rfl

theorem signed_not (negative : Bool) (n : Nat) : signed (!negative) n = -signed negative n := by
  cases negative with
  | false => rfl
  | true => exact (Int.neg_neg n).symm

end Formulae.Number
