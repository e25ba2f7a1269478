import Formulae.Proofs.Number.Nearest
import Mathlib

/-!
# Rounding to the nearest float

The operations on floats compute a mantissa and an exponent that are exact up to a residue, shift the
mantissa to the exponent that fits its magnitude, and round.  The residue is kept in two bits, one for
the first digit that was dropped and one for all digits after it.

* `Represents` says which numbers a mantissa with its two bits stands for.  A shift by one digit keeps
  this up to the factor (`Represents.shiftRightOne`), and so does a shift by any number of digits.
* Rounding such a mantissa takes the better one of two neighbouring codes (`Represents.closer_eq`).
* So the bit pattern that comes out is that of the nearest code, for every mantissa whose exponent is
  not too large (`toNat_pack_roundWithAccuracy`), and for every mantissa if its exponent may be
  decreased as well (`toNat_pack_round`).
-/

namespace Formulae.Number

open Float.Model (UnpackedFloat totalExponent)
open Float.Model.UnpackedFloat hiding round normalize

/-! ## Mantissas with a residue -/

/-- The number that a mantissa stands for, as far as its two residual bits tell. -/
inductive Represents : ExtendedMantissa → ℝ → Prop
  | exact {m : ℕ} {w : ℝ} : w = m → Represents ⟨m, false, false⟩ w
  | below {m : ℕ} {w : ℝ} : m < w → w < m + 1 / 2 → Represents ⟨m, false, true⟩ w
  | half {m : ℕ} {w : ℝ} : w = m + 1 / 2 → Represents ⟨m, true, false⟩ w
  | above {m : ℕ} {w : ℝ} : m + 1 / 2 < w → w < m + 1 → Represents ⟨m, true, true⟩ w

theorem shiftRightOne_even (a : ℕ) (r s : Bool) :
    ExtendedMantissa.shiftRightOne ⟨2 * a, r, s⟩ = ⟨a, false, r || s⟩ := by
  rw [ExtendedMantissa.shiftRightOne, Nat.mul_div_cancel_left a Nat.two_pos, Nat.mul_mod_right]
  rfl

theorem shiftRightOne_odd (a : ℕ) (r s : Bool) :
    ExtendedMantissa.shiftRightOne ⟨2 * a + 1, r, s⟩ = ⟨a, true, r || s⟩ := by
  rw [ExtendedMantissa.shiftRightOne, show (2 * a + 1) / 2 = a by omega,
    show (2 * a + 1) % 2 = 1 by omega]
  rfl

namespace Represents

variable {em : ExtendedMantissa} {w : ℝ}

theorem mantissa_le (represents : Represents em w) : (em.mantissa : ℝ) ≤ w := by
  cases represents <;> dsimp only <;> linarith

theorem lt_mantissa_add_one (represents : Represents em w) : w < em.mantissa + 1 := by
  cases represents <;> dsimp only <;> linarith

/-- Dropping the last digit halves the number. -/
theorem shiftRightOne (represents : Represents em w) : Represents em.shiftRightOne (w / 2) := by
  obtain ⟨m, r, s⟩ := em
  obtain ⟨a, rfl | rfl⟩ : ∃ a, m = 2 * a ∨ m = 2 * a + 1 := ⟨m / 2, by omega⟩
  · rw [shiftRightOne_even]
    cases represents with
    | exact same => exact exact (by push_cast at same; linarith)
    | below least greatest =>
      push_cast at least greatest
      exact below (by linarith) (by linarith)
    | half same =>
      push_cast at same
      exact below (by linarith) (by linarith)
    | above least greatest =>
      push_cast at least greatest
      exact below (by linarith) (by linarith)
  · rw [shiftRightOne_odd]
    cases represents with
    | exact same => exact half (by push_cast at same; linarith)
    | below least greatest =>
      push_cast at least greatest
      exact above (by linarith) (by linarith)
    | half same =>
      push_cast at same
      exact above (by linarith) (by linarith)
    | above least greatest =>
      push_cast at least greatest
      exact above (by linarith) (by linarith)

theorem shiftRight (represents : Represents em w) (k : ℕ) : Represents (em >>> k) (w / 2 ^ k) := by
  induction k with
  | zero =>
    rw [pow_zero, div_one]
    exact represents
  | succ k induction =>
    rw [pow_succ, ← div_div]
    exact induction.shiftRightOne

/-- Rounding takes the better one of two neighbouring codes. -/
theorem closer_eq (represents : Represents em w) {b E : ℕ} (even : b % 2 = 0)
    (least : steps (b + em.mantissa) = em.mantissa * 2 ^ E)
    (greatest : steps (b + em.mantissa + 1) = (em.mantissa + 1) * 2 ^ E) :
    closer (b + em.mantissa) (w * 2 ^ E) = b + em.roundedMantissa := by
  have scale : (0 : ℝ) < 2 ^ E := by positivity
  have middle : (steps (b + em.mantissa) + steps (b + em.mantissa + 1) : ℝ) =
      (2 * em.mantissa + 1) * 2 ^ E := by
    rw [least, greatest]
    push_cast
    ring
  unfold closer
  simp only [middle, ← mul_assoc, mul_lt_mul_iff_left₀ scale]
  cases represents with
  | exact same => exact if_pos (by linarith)
  | below _ less => exact if_pos (by linarith)
  | @half m w same =>
    rw [if_neg (by linarith), if_neg (by linarith)]
    change (if (b + m) % 2 = 0 then b + m else b + m + 1) = b + (m + m % 2)
    split_ifs <;> omega
  | above more _ => rw [if_neg (by linarith), if_pos (by linarith)]; rfl

end Represents

theorem mantissa_shiftRight (em : ExtendedMantissa) (k : ℕ) :
    (em >>> k).mantissa = em.mantissa / 2 ^ k := by
  induction k with
  | zero => exact (Nat.div_one _).symm
  | succ k induction =>
    change (em >>> k).mantissa / 2 = _
    rw [induction, Nat.div_div_eq_div_mul, Nat.pow_succ]

theorem mantissa_ofMantissaAndAccuracy (m : ℕ) (a : Accuracy) :
    (ExtendedMantissa.ofMantissaAndAccuracy m a).mantissa = m := by
  cases a with
  | exact => rfl
  | inexact relation => cases relation <;> rfl

theorem le_roundedMantissa (em : ExtendedMantissa) : em.mantissa ≤ em.roundedMantissa := by
  obtain ⟨m, r, s⟩ := em
  cases r <;> cases s <;> first | exact Nat.le_refl m | exact Nat.le_add_right m _

theorem roundedMantissa_le (em : ExtendedMantissa) : em.roundedMantissa ≤ em.mantissa + 1 := by
  obtain ⟨m, r, s⟩ := em
  have parity := Nat.mod_lt m Nat.two_pos
  cases r <;> cases s <;> first
    | exact Nat.le_succ m
    | exact Nat.le_refl _
    | exact Nat.add_le_add_left (Nat.le_of_lt_succ parity) m

/-- What a division leaves over tells where the quotient lies. -/
theorem represents_quotient (a : ℕ) {b : ℕ} (positive : 0 < b) :
    Represents (ExtendedMantissa.ofMantissaAndAccuracy (a / b) (accuracyOfFraction (a % b) b))
      (a / b) := by
  have scale : (0 : ℝ) < b := Nat.cast_pos.2 positive
  have remainder : ((a % b : ℕ) : ℝ) < b := Nat.cast_lt.2 (Nat.mod_lt a positive)
  have quotient : (a / b : ℝ) = (a / b : ℕ) + (a % b : ℕ) / b := by
    rw [eq_comm, eq_div_iff scale.ne', add_mul, div_mul_cancel₀ _ scale.ne']
    exact_mod_cast Nat.div_add_mod' a b
  rw [quotient]
  generalize a / b = m at *
  generalize a % b = n at *
  unfold accuracyOfFraction
  by_cases zero : n = 0
  · rw [if_pos zero, zero]
    exact Represents.exact (by norm_num)
  · have some : (0 : ℝ) < n / b := div_pos (Nat.cast_pos.2 (Nat.pos_of_ne_zero zero)) scale
    have fraction : (n : ℝ) / b < 1 := (div_lt_one scale).2 remainder
    rw [if_neg zero]
    rcases lt_trichotomy (2 * n) b with less | equal | more
    · rw [Nat.compare_eq_lt.2 less]
      have half : (n : ℝ) / b < 1 / 2 := by
        rw [div_lt_div_iff₀ scale two_pos, one_mul, mul_comm]
        exact_mod_cast less
      exact Represents.below (by linarith) (by linarith)
    · rw [Nat.compare_eq_eq.2 equal]
      have half : (n : ℝ) / b = 1 / 2 := by
        rw [div_eq_div_iff scale.ne' two_ne_zero, one_mul, mul_comm]
        exact_mod_cast equal
      exact Represents.half (by rw [half])
    · rw [Nat.compare_eq_gt.2 more]
      have half : (1 : ℝ) / 2 < n / b := by
        rw [div_lt_div_iff₀ two_pos scale, one_mul, mul_comm (n : ℝ)]
        exact_mod_cast more
      exact Represents.above (by linarith) (by linarith)

/-! ## Putting together -/

section

variable (negative : Bool) {q E : ℕ}

/-- The magnitude of a mantissa that fits its exponent. -/
theorem steps_of_fit (fit : E = 0 ∨ binade ≤ q) (small : q ≤ 2 * binade) :
    steps (E * binade + q) = q * 2 ^ E := by
  by_cases large : binade ≤ q
  · exact steps_mul_add E large small
  · obtain rfl := fit.resolve_right large
    rw [Nat.zero_mul, Nat.zero_add, Nat.pow_zero, Nat.mul_one, steps_of_lt (Nat.not_le.1 large)]

/-- A mantissa that fits its exponent is put together to its code, or to infinity. -/
theorem toNat_pack_of_fit (positive : 0 < q) (fit : E = 0 ∨ binade ≤ q) (small : q < 2 * binade) :
    (UnpackedFloat.pack .binary64 (.finite (sign negative) q (E - 1074 : Int) positive)).toNat =
      word negative (min (E * binade + q) infinityCode) := by
  by_cases large : binade ≤ q
  · obtain ⟨m, rfl⟩ := Nat.exists_eq_add_of_le large
    by_cases last : E + 1 < 2047
    · have packed := toNat_pack_normal negative positive (Nat.succ_pos E) last (by omega)
      rw [show ((E + 1 : ℕ) - 1075 : Int) = E - 1074 by omega] at packed
      rw [packed, Nat.min_eq_left, Nat.succ_mul, Nat.add_assoc]
      · rw [infinityCode_eq]
        rw [binade_eq] at *
        omega
    · have overflow : 2 ^ 11 ≤ ((E - 1074 : Int) + (1023 : ℕ) + (52 : ℕ)).toNat + 1 := by omega
      rw [Nat.min_eq_right]
      · unfold UnpackedFloat.pack
        change (if 2 ^ 11 ≤ ((E - 1074 : Int) + (1023 : ℕ) + (52 : ℕ)).toNat + 1 then
          packedInfinity .binary64 (sign negative) else _ : BitVec 64).toNat = _
        rw [if_pos overflow]
        exact toNat_packComponents_sign negative (-1#11) 0
      · rw [infinityCode_eq]
        rw [binade_eq] at *
        omega
  · obtain rfl := fit.resolve_right large
    have bounded : q ≤ infinityCode := (Nat.not_le.1 large).le.trans (by decide)
    rw [Nat.zero_mul, Nat.zero_add, Nat.min_eq_left bounded]
    exact toNat_pack_subnormal positive (Nat.not_le.1 large)

/-- A rounded mantissa fits its exponent, or it does so after one more digit is dropped. -/
theorem exists_shiftToTargetExponent {r E : ℕ} (fit : E = 0 ∨ binade ≤ r) (small : r ≤ 2 * binade) :
    ∃ q F : ℕ, shiftToTargetExponent .binary64 r (E - 1074) .exact =
        (⟨q, false, false⟩, (F - 1074 : Int)) ∧
      (F = 0 ∨ binade ≤ q) ∧ q < 2 * binade ∧ F * binade + q = E * binade + r := by
  rcases Nat.lt_or_eq_of_le small with less | whole
  · refine ⟨r, E, ?_, fit, less, rfl⟩
    have target : Float.Model.Format.binary64.targetExponent
        (totalExponent (r * 2 ^ 0) (E - 1074 : Int)) = (E - 1074 : Int) + (0 : ℕ) := by
      rw [targetExponent_eq, totalExponent, Nat.pow_zero, Nat.mul_one]
      rcases Nat.eq_zero_or_pos r with rfl | positive
      · have zero : E = 0 := fit.resolve_right (by decide)
        rw [zero]
        rfl
      · have bits : r.log2 < 53 := (Nat.log2_lt positive.ne').2 less
        have full : E = 0 ∨ 52 ≤ r.log2 := fit.imp_right (Nat.le_log2 positive.ne').2
        omega
    have shifted := shiftToTargetExponent_exact target
    rwa [Nat.pow_zero, Nat.mul_one, Int.natCast_zero, Int.add_zero] at shifted
  · refine ⟨binade, E + 1, ?_, Or.inr le_rfl, by decide, by rw [whole]; ring⟩
    have target : Float.Model.Format.binary64.targetExponent
        (totalExponent (binade * 2 ^ 1) (E - 1074 : Int)) = (E - 1074 : Int) + (1 : ℕ) := by
      have bits : (binade * 2 ^ 1).log2 = 53 := by decide
      rw [targetExponent_eq, totalExponent, bits]
      omega
    rw [whole, show 2 * binade = binade * 2 ^ 1 by ring,
      show ((E + 1 : ℕ) - 1074 : Int) = (E - 1074 : Int) + (1 : ℕ) by omega]
    exact shiftToTargetExponent_exact target

/-- The first shift takes a mantissa to an exponent that fits it. -/
theorem fit_of_targetExponent {m E k : ℕ} {e : Int}
    (target : Float.Model.Format.binary64.targetExponent (totalExponent m e) = E - 1074)
    (shift : (E - 1074 : Int) = e + k) :
    (E = 0 ∨ binade ≤ m / 2 ^ k) ∧ m / 2 ^ k < 2 * binade := by
  rw [targetExponent_eq, totalExponent] at target
  constructor
  · refine or_iff_not_imp_left.2 fun nonzero => ?_
    have positive : m ≠ 0 := by
      rintro rfl
      rw [show Nat.log2 0 = 0 by decide] at target
      omega
    rw [Nat.le_div_iff_mul_le (Nat.two_pow_pos k), show binade = 2 ^ 52 from rfl, ← Nat.pow_add]
    refine Nat.le_trans (Nat.pow_le_pow_right Nat.two_pos ?_) (Nat.log2_self_le positive)
    omega
  · rw [Nat.div_lt_iff_lt_mul (Nat.two_pow_pos k), show 2 * binade = 2 ^ 53 from rfl, ← Nat.pow_add]
    refine Nat.lt_of_lt_of_le Nat.lt_log2_self (Nat.pow_le_pow_right Nat.two_pos ?_)
    omega

/-- A mantissa that fits its exponent is rounded to the nearest code. -/
theorem codeNear_of_represents {em : ExtendedMantissa} {w : ℝ} {E : ℕ} (represents : Represents em w)
    (fit : E = 0 ∨ binade ≤ em.mantissa) (small : em.mantissa < 2 * binade) :
    codeNear (w * 2 ^ E) = min (E * binade + em.roundedMantissa) infinityCode := by
  -- The number lies between the codes of the mantissa and of the next one.
  have least := steps_of_fit fit small.le
  have greatest := steps_of_fit (q := em.mantissa + 1) (fit.imp_right Nat.le_succ_of_le) small
  rw [← Nat.add_assoc] at greatest
  have even : E * binade % 2 = 0 := by
    rw [binade_eq]
    omega
  rw [codeNear_eq (c := E * binade + em.mantissa), represents.closer_eq even least greatest]
  · rw [least]
    push_cast
    exact mul_le_mul_of_nonneg_right represents.mantissa_le (by positivity)
  · rw [greatest]
    push_cast
    exact mul_lt_mul_of_pos_right represents.lt_mantissa_add_one (by positivity)

/-- Rounding a mantissa of a number puts the code together that is nearest to the number. -/
theorem toNat_pack_roundWithAccuracy {m : ℕ} {e : Int} {a : Accuracy} {w : ℝ}
    (represents : Represents (ExtendedMantissa.ofMantissaAndAccuracy m a) w)
    (low : e ≤ Float.Model.Format.binary64.targetExponent (totalExponent m e)) :
    (UnpackedFloat.pack .binary64 (roundWithAccuracy .binary64 (sign negative) m e a)).toNat =
      word negative (codeNear (w * 2 ^ (e + 1074))) := by
  obtain ⟨E, target⟩ : ∃ E : ℕ,
      Float.Model.Format.binary64.targetExponent (totalExponent m e) = E - 1074 := by
    rw [targetExponent_eq]
    exact ⟨(max (totalExponent m e - 53) (-1074) + 1074).toNat, by omega⟩
  obtain ⟨k, shift⟩ : ∃ k : ℕ, (E - 1074 : Int) = e + k := ⟨(E - 1074 - e).toNat, by omega⟩
  have first : shiftToTargetExponent .binary64 m e a =
      (ExtendedMantissa.ofMantissaAndAccuracy m a >>> k, (E - 1074 : Int)) := by
    unfold shiftToTargetExponent shiftToExponent
    dsimp only
    rw [target, show ((E - 1074 : Int) - e).toNat = k by omega, shift]
  have shifted := represents.shiftRight k
  obtain ⟨fit, small⟩ := fit_of_targetExponent target shift
  have mantissa := mantissa_shiftRight (ExtendedMantissa.ofMantissaAndAccuracy m a) k
  rw [mantissa_ofMantissaAndAccuracy] at mantissa
  rw [← mantissa] at fit small
  generalize ExtendedMantissa.ofMantissaAndAccuracy m a >>> k = em at *
  have value : w * 2 ^ (e + 1074) = w / 2 ^ k * 2 ^ E := by
    rw [show e + 1074 = (E : Int) - (k : Int) by omega, zpow_sub₀ two_ne_zero, zpow_natCast,
      zpow_natCast]
    ring
  -- The second shift makes room if rounding has filled the mantissa up.
  obtain ⟨q, F, second, fit', small', same⟩ := exists_shiftToTargetExponent
    (fit.imp_right fun large => large.trans (le_roundedMantissa em))
    ((roundedMantissa_le em).trans small)
  rw [value, codeNear_of_represents shifted fit small, ← same]
  unfold roundWithAccuracy
  rw [first]
  dsimp only
  rw [second]
  dsimp only
  split
  next zero =>
    have whole : F = 0 := fit'.resolve_right (by rw [zero]; exact Nat.not_le.2 binade_pos)
    rw [zero, whole]
    exact toNat_packComponents_sign negative 0 0
  next nonzero => exact toNat_pack_of_fit negative (Nat.pos_of_ne_zero nonzero) fit' small'

/-- Rounding after decreasing the exponent where this is needed. -/
theorem toNat_pack_round {m : ℕ} (positive : 0 < m) (e : Int) :
    (UnpackedFloat.pack .binary64 (UnpackedFloat.round .binary64 (sign negative) m e)).toNat =
      word negative (codeNear (m * 2 ^ (e + 1074))) := by
  unfold UnpackedFloat.round decreaseExponent
  dsimp only
  generalize target :
    Float.Model.Format.binary64.targetExponent (totalExponent m e) = t
  obtain ⟨k, shift⟩ : ∃ k : ℕ, (e - t).toNat = k := ⟨_, rfl⟩
  rw [shift, Nat.shiftLeft_eq]
  have total : totalExponent (m * 2 ^ k) (e - k) = totalExponent m e := by
    rw [totalExponent, log2_mul_two_pow positive, totalExponent]
    push_cast
    ring
  rw [toNat_pack_roundWithAccuracy negative (w := (m * 2 ^ k : ℕ)) (Represents.exact rfl)
    (by rw [total, target]; omega)]
  have same : ((m * 2 ^ k : ℕ) : ℝ) * 2 ^ (e - k + 1074) = m * 2 ^ (e + 1074) := by
    have split : (2 : ℝ) ^ (e + 1074) = 2 ^ k * 2 ^ (e - k + 1074) := by
      rw [← zpow_natCast, ← zpow_add₀ two_ne_zero, show (k : Int) + (e - k + 1074) = e + 1074 by ring]
    rw [split, Nat.cast_mul, Nat.cast_pow, Nat.cast_ofNat, mul_assoc]
  rw [same]

end

/-- Rounding a signed mantissa. -/
theorem toNat_pack_normalize (m e : Int) :
    (UnpackedFloat.pack .binary64 (UnpackedFloat.normalize .binary64 m e .positive)).toNat =
      word (decide (m < 0)) (codeNear (|(m : ℝ)| * 2 ^ (e + 1074))) := by
  rcases lt_trichotomy m 0 with negative | rfl | positive
  · have magnitude : ((-m).toNat : ℝ) = |(m : ℝ)| := by
      rw [abs_of_neg (Int.cast_lt_zero.2 negative)]
      exact_mod_cast Int.toNat_of_nonneg (by omega : 0 ≤ -m)
    rw [UnpackedFloat.normalize, Int.compare_eq_lt.2 negative, decide_eq_true negative, ← magnitude]
    exact toNat_pack_round true (by omega) e
  · rw [Int.cast_zero, abs_zero, zero_mul, codeNear_zero]
    exact toNat_packComponents_sign false 0 0
  · have magnitude : (m.toNat : ℝ) = |(m : ℝ)| := by
      rw [abs_of_pos (Int.cast_pos.2 positive)]
      exact_mod_cast Int.toNat_of_nonneg positive.le
    rw [UnpackedFloat.normalize, Int.compare_eq_gt.2 positive,
      decide_eq_false (Int.not_lt.2 positive.le), ← magnitude]
    exact toNat_pack_round false (by omega) e

end Formulae.Number
