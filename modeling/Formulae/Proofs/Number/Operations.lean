import Formulae.Number.Rounding
import Formulae.Proofs.Number.Laws
import Formulae.Proofs.Number.Rounded

/-!
# Operations are nearest to exact results

Addition, subtraction, multiplication and division of finite floats give the float that is nearest to
the exact result: `isNearest_add`, `isNearest_sub`, `isNearest_mul` and `isNearest_div`.  The same holds
of whole numbers taken to floats (`isNearest_ofNat`) and of rounding to whole numbers
(`isNearest_roundHalfAway`).  `floorNat_eq` and `ceilNat_eq` are the whole numbers next to a float.
-/

namespace Formulae.Number

open Float.Model (UnpackedFloat totalExponent)
open Float.Model.UnpackedFloat hiding round normalize

/-! ## Exact values by their parts -/

theorem cast_signed (negative : Bool) (m : ℕ) :
    (signed negative m : ℝ) = if negative then -(m : ℝ) else m := by
  cases negative with
  | false => exact Int.cast_natCast m
  | true => rw [signed, if_pos rfl, Int.cast_neg, Int.cast_natCast, if_pos rfl]

theorem abs_signed (negative : Bool) (m : ℕ) : |(signed negative m : ℝ)| = m := by
  rw [← Int.cast_abs, Int.abs_eq_natAbs, natAbs_signed]
  exact Int.cast_natCast m

/-- A finite float is a zero or has a mantissa and an exponent, which make up its value. -/
theorem unpack_of_finite {x : Float} (finite : code x < infinityCode) :
    (x.toModel.unpack = .zero (sign (isNegative x)) ∧ toReal x = 0) ∨
      ∃ (m : ℕ) (e : ℤ) (positive : 0 < m),
        -1074 ≤ e ∧ (e = -1074 ∨ binade ≤ m) ∧
        x.toModel.unpack = .finite (sign (isNegative x)) m e positive ∧
        toReal x = signed (isNegative x) m * 2 ^ e := by
  rw [unpack_eq, toReal_of_finite finite, signedSteps_eq]
  by_cases zero : code x = 0
  · left
    rw [zero, signed_zero, Int.cast_zero, zero_div]
    exact ⟨parts_zero _, rfl⟩
  · right
    obtain ⟨m, k, positive, ⟨fit, -⟩, magnitude, whole⟩ := exists_parts zero finite
    refine ⟨m, k - 1074, positive, by omega, fit.imp_left (by omega), whole _, ?_⟩
    rw [← magnitude, stepsPerUnit_eq_zpow, zpow_sub₀ two_ne_zero, zpow_natCast, cast_signed,
      cast_signed]
    split <;> push_cast <;> ring

/-! ## Nearest floats by their bits -/

section

variable {u : UnpackedFloat} {v : ℝ} (negative : Bool)

theorem isNearest_pack
    (bits : (UnpackedFloat.pack .binary64 u).toNat = word negative (codeNear (|v| * stepsPerUnit)))
    (below : v < 0 → negative = true) (above : 0 < v → negative = false) :
    IsNearest (Float.ofModel (.pack u)) v := by
  obtain ⟨sameSign, sameCode⟩ :=
    of_toBits_eq_word (x := Float.ofModel (.pack u)) (codeNear_le_infinityCode _) bits
  exact ⟨sameCode, fun less => sameSign.trans (below less), fun more => sameSign.trans (above more)⟩

theorem isNearest_pack_zero :
    IsNearest (Float.ofModel (.pack (.zero (sign negative)))) 0 := by
  refine isNearest_pack negative ?_ (fun less => absurd less (lt_irrefl _))
    (fun more => absurd more (lt_irrefl _))
  rw [abs_zero, zero_mul, codeNear_zero]
  exact toNat_packComponents_sign negative 0 0

/-- A signed mantissa that is rounded. -/
theorem isNearest_pack_normalize {m e : ℤ} (value : v = m * 2 ^ e) :
    IsNearest (Float.ofModel (.pack (UnpackedFloat.normalize .binary64 m e .positive))) v := by
  have scale : (0 : ℝ) < 2 ^ e := zpow_pos two_pos e
  refine isNearest_pack (decide (m < 0)) ?_ (fun less => ?_) (fun more => ?_)
  · rw [toNat_pack_normalize, value, stepsPerUnit_eq_zpow, abs_mul, abs_of_pos scale, mul_assoc,
      ← zpow_add₀ two_ne_zero]
  · rw [value] at less
    exact decide_eq_true (Int.cast_lt_zero.1 (neg_of_mul_neg_left less scale.le))
  · rw [value, mul_pos_iff_of_pos_right scale, Int.cast_pos] at more
    exact decide_eq_false (Int.not_lt.2 more.le)

/-- A mantissa that stands for a number in its place and is rounded. -/
theorem isNearest_pack_roundWithAccuracy {m : ℕ} {e : ℤ} {a : Accuracy} {w : ℝ}
    (represents : Represents (ExtendedMantissa.ofMantissaAndAccuracy m a) w)
    (low : e ≤ Float.Model.Format.binary64.targetExponent (totalExponent m e)) (nonneg : 0 ≤ w)
    (value : v = (if negative then -w else w) * 2 ^ e) :
    IsNearest (Float.ofModel (.pack (roundWithAccuracy .binary64 (sign negative) m e a))) v := by
  have scale : (0 : ℝ) < 2 ^ e := zpow_pos two_pos e
  have magnitude : |v| = w * 2 ^ e := by
    rw [value, abs_mul, abs_of_pos scale]
    cases negative with
    | false => rw [if_neg Bool.false_ne_true, abs_of_nonneg nonneg]
    | true => rw [if_pos rfl, abs_neg, abs_of_nonneg nonneg]
  refine isNearest_pack negative ?_ (fun less => ?_) (fun more => ?_)
  · rw [toNat_pack_roundWithAccuracy negative represents low, magnitude, stepsPerUnit_eq_zpow,
      mul_assoc, ← zpow_add₀ two_ne_zero]
  · cases negative with
    | false => exact absurd (value ▸ less) (not_lt.2 (mul_nonneg nonneg scale.le))
    | true => rfl
  · cases negative with
    | false => rfl
    | true =>
      refine absurd (value ▸ more) (not_lt.2 (mul_nonpos_of_nonpos_of_nonneg ?_ scale.le))
      exact neg_nonpos.2 nonneg

end

/-! ## Sums and differences -/

section

variable {x y : Float}

theorem signed_shiftLeft_zpow (negative : Bool) (m : ℕ) {e t : ℤ} (le : t ≤ e) :
    (signed negative (m <<< (e - t).toNat) : ℝ) * 2 ^ t = signed negative m * 2 ^ e := by
  have split : (2 : ℝ) ^ e = 2 ^ (e - t).toNat * 2 ^ t := by
    rw [← zpow_natCast, ← zpow_add₀ two_ne_zero, Int.toNat_of_nonneg (by omega), Int.sub_add_cancel]
  rw [split, Nat.shiftLeft_eq, cast_signed, cast_signed]
  split_ifs <;> push_cast <;> ring

/-- Both mantissas are moved down to the lesser of the two exponents. -/
theorem add_finite {s s' : Sign} {m m' : ℕ} {e e' : ℤ} {h : 0 < m} {h' : 0 < m'} :
    UnpackedFloat.add .binary64 (.finite s m e h) (.finite s' m' e' h') =
      UnpackedFloat.normalize .binary64
        (s.apply (m <<< (e - min e e').toNat) + s'.apply (m' <<< (e' - min e e').toNat))
        (min e e') .positive :=
  rfl

theorem sub_finite {s s' : Sign} {m m' : ℕ} {e e' : ℤ} {h : 0 < m} {h' : 0 < m'} :
    UnpackedFloat.sub .binary64 (.finite s m e h) (.finite s' m' e' h') =
      UnpackedFloat.normalize .binary64
        (s.apply (m <<< (e - min e e').toNat) - s'.apply (m' <<< (e' - min e e').toNat))
        (min e e') .positive :=
  rfl

/-- A sum is the float nearest to the exact sum. -/
theorem isNearest_add (finite : code x < infinityCode) (finite' : code y < infinityCode) :
    IsNearest (x + y) (toReal x + toReal y) := by
  change IsNearest (Float.ofModel
    (.pack (UnpackedFloat.add .binary64 x.toModel.unpack y.toModel.unpack))) _
  rcases unpack_of_finite finite with ⟨zero, none⟩ | ⟨m, e, positive, -, -, whole, value⟩
  · rcases unpack_of_finite finite' with ⟨zero', none'⟩ | ⟨m', e', positive', -, -, whole', -⟩
    · rw [zero, zero', none, none', add_zero]
      cases isNegative x <;> cases isNegative y <;>
        first | exact isNearest_pack_zero false | exact isNearest_pack_zero true
    · have same : UnpackedFloat.add .binary64 x.toModel.unpack y.toModel.unpack =
          y.toModel.unpack := by
        rw [zero, whole']
        rfl
      rw [pack_eq same, none, zero_add]
      exact isNearest_toReal finite'
  · rcases unpack_of_finite finite' with ⟨zero', none'⟩ | ⟨m', e', positive', -, -, whole', value'⟩
    · have same : UnpackedFloat.add .binary64 x.toModel.unpack y.toModel.unpack =
          x.toModel.unpack := by
        rw [whole, zero']
        rfl
      rw [pack_eq same, none', add_zero]
      exact isNearest_toReal finite
    · rw [whole, whole', add_finite]
      refine isNearest_pack_normalize ?_
      rw [apply_sign, apply_sign, Int.cast_add, add_mul, signed_shiftLeft_zpow _ _ (min_le_left _ _),
        signed_shiftLeft_zpow _ _ (min_le_right _ _), value, value']

theorem apply_neg_sign (s : Sign) (n : ℤ) : (-s).apply n = -s.apply n := by
  cases s with
  | positive => rfl
  | negative => exact (Int.neg_neg n).symm

theorem sub_eq_add_neg_unpacked (u v : UnpackedFloat) :
    UnpackedFloat.sub .binary64 u v = UnpackedFloat.add .binary64 u v.neg := by
  cases u with
  | notANumber => rfl
  | infinity s => cases v <;> rfl
  | zero s => cases v <;> rfl
  | finite s m e positive =>
    cases v with
    | notANumber => rfl
    | infinity s' => rfl
    | zero s' => rfl
    | finite s' m' e' positive' =>
      rw [UnpackedFloat.neg, sub_finite, add_finite, apply_neg_sign, Int.sub_eq_add_neg]

/-- A difference is the float nearest to the exact difference. -/
theorem isNearest_sub (finite : code x < infinityCode) (finite' : code y < infinityCode) :
    IsNearest (x - y) (toReal x - toReal y) := by
  have same : x - y = x + -y := by
    change Float.ofModel (.pack (UnpackedFloat.sub .binary64 x.toModel.unpack y.toModel.unpack)) =
      Float.ofModel (.pack (UnpackedFloat.add .binary64 x.toModel.unpack (-y).toModel.unpack))
    rw [unpack_neg, sub_eq_add_neg_unpacked]
  rw [same, sub_eq_add_neg, ← toReal_neg]
  exact isNearest_add finite ((neg_of_defined finite'.le).1.trans_lt finite')

/-- A difference that is a float is computed exactly. -/
theorem toReal_sub {z : Float} (finite : code x < infinityCode) (finite' : code y < infinityCode)
    (representable : code z < infinityCode) (difference : toReal z = toReal x - toReal y) :
    toReal (x - y) = toReal x - toReal y :=
  ((isNearest_sub finite finite').exact (difference ▸ isFloat_toReal representable)).2

/-- The difference of equal numbers is zero. -/
theorem sub_of_toReal_eq (finite : code x < infinityCode) (finite' : code y < infinityCode)
    (same : toReal x = toReal y) : code (x - y) < infinityCode ∧ toReal (x - y) = 0 := by
  have nearest := isNearest_sub finite finite'
  rw [same, sub_self] at nearest
  exact nearest.exact isFloat_zero

/-! ## Products and quotients -/

theorem sign_mul_sign (negative negative' : Bool) :
    sign negative * sign negative' = sign (negative ^^ negative') := by
  cases negative <;> cases negative' <;> rfl

theorem sign_div_sign (negative negative' : Bool) :
    sign negative / sign negative' = sign (negative ^^ negative') := by
  cases negative <;> cases negative' <;> rfl

/-- A product is the float nearest to the exact product. -/
theorem isNearest_mul (finite : code x < infinityCode) (finite' : code y < infinityCode) :
    IsNearest (x * y) (toReal x * toReal y) := by
  change IsNearest (Float.ofModel
    (.pack (UnpackedFloat.mul .binary64 x.toModel.unpack y.toModel.unpack))) _
  rcases unpack_of_finite finite with ⟨zero, none⟩ | ⟨m, e, positive, least, fit, whole, value⟩
  · rw [none, zero_mul]
    rcases unpack_of_finite finite' with ⟨zero', -⟩ | ⟨m', e', positive', -, -, whole', -⟩
    · rw [zero, zero', UnpackedFloat.mul, sign_mul_sign]
      exact isNearest_pack_zero _
    · rw [zero, whole', UnpackedFloat.mul, sign_mul_sign]
      exact isNearest_pack_zero _
  · rcases unpack_of_finite finite' with
      ⟨zero', none'⟩ | ⟨m', e', positive', least', fit', whole', value'⟩
    · rw [whole, zero', UnpackedFloat.mul, sign_mul_sign, none', mul_zero]
      exact isNearest_pack_zero _
    · rw [whole, whole', UnpackedFloat.mul, sign_mul_sign]
      refine isNearest_pack_roundWithAccuracy _ (w := (m * m' : ℕ)) (Represents.exact rfl) ?_
        (Nat.cast_nonneg _) ?_
      · rw [targetExponent_eq, totalExponent]
        -- The product has enough digits, or both exponents are the least one.
        have enough : binade ≤ m ∨ binade ≤ m' → 52 ≤ (m * m').log2 := by
          intro large
          refine (Nat.le_log2 (Nat.mul_pos positive positive').ne').2 ?_
          rcases large with large | large
          · exact large.trans (Nat.le_mul_of_pos_right m positive')
          · exact large.trans (Nat.le_mul_of_pos_left m' positive)
        by_cases large : binade ≤ m ∨ binade ≤ m'
        · have bits := enough large
          omega
        · have lowest := fit.resolve_right fun some => large (Or.inl some)
          omega
      · rw [value, value', cast_signed, cast_signed, zpow_add₀ two_ne_zero]
        cases isNegative x <;> cases isNegative y <;> simp <;> ring

theorem div_finite {s s' : Sign} {m m' : ℕ} {e e' : ℤ} {h : 0 < m} {h' : 0 < m'} {t : ℤ}
    (target : min (e - e')
      (Float.Model.Format.binary64.targetExponent (totalExponent m e - totalExponent m' e')) = t) :
    UnpackedFloat.div .binary64 (.finite s m e h) (.finite s' m' e' h') =
      roundWithAccuracy .binary64 (s / s') (m <<< (e - e' - t).toNat / m') t
        (accuracyOfFraction (m <<< (e - e' - t).toNat % m') m') := by
  rw [← target]
  rfl

/-- A quotient is the float nearest to the exact quotient. -/
theorem isNearest_div (finite : code x < infinityCode) (finite' : code y < infinityCode)
    (nonzero : toReal y ≠ 0) : IsNearest (x / y) (toReal x / toReal y) := by
  change IsNearest (Float.ofModel
    (.pack (UnpackedFloat.div .binary64 x.toModel.unpack y.toModel.unpack))) _
  obtain ⟨m', e', positive', -, -, whole', value'⟩ :=
    (unpack_of_finite finite').resolve_left fun zero => nonzero zero.2
  rcases unpack_of_finite finite with ⟨zero, none⟩ | ⟨m, e, positive, -, -, whole, value⟩
  · rw [zero, whole', UnpackedFloat.div, sign_div_sign, none, zero_div]
    exact isNearest_pack_zero _
  · obtain ⟨t, target⟩ : ∃ t, min (e - e') (Float.Model.Format.binary64.targetExponent
      (totalExponent m e - totalExponent m' e')) = t := ⟨_, rfl⟩
    obtain ⟨k, shift⟩ : ∃ k : ℕ, (e - e' - t).toNat = k := ⟨_, rfl⟩
    have exponent : e - e' = t + k := by omega
    rw [whole, whole', div_finite target, sign_div_sign, shift, Nat.shiftLeft_eq]
    have divisor : (0 : ℝ) < m' := Nat.cast_pos.2 positive'
    refine isNearest_pack_roundWithAccuracy _ (represents_quotient (m * 2 ^ k) positive') ?_
      (by positivity) ?_
    · rw [targetExponent_eq, totalExponent, totalExponent] at target
      rw [targetExponent_eq, totalExponent]
      by_cases lowest : t ≤ -1074
      · omega
      · -- Above the least exponent the dividend is so long that the quotient has enough digits.
        have long : m'.log2 + 53 ≤ m.log2 + k := by omega
        have enough : 2 ^ 52 ≤ m * 2 ^ k / m' := by
          rw [Nat.le_div_iff_mul_le positive']
          calc 2 ^ 52 * m'
              ≤ 2 ^ 52 * 2 ^ (m'.log2 + 1) := Nat.mul_le_mul_left _ Nat.lt_log2_self.le
            _ = 2 ^ (m'.log2 + 53) := by rw [← Nat.pow_add]; congr 1; omega
            _ ≤ 2 ^ (m.log2 + k) := Nat.pow_le_pow_right Nat.two_pos long
            _ = 2 ^ m.log2 * 2 ^ k := Nat.pow_add _ _ _
            _ ≤ m * 2 ^ k := Nat.mul_le_mul_right _ (Nat.log2_self_le positive.ne')
        have bits := (Nat.le_log2 (by omega)).2 enough
        omega
    · rw [value, value', cast_signed, cast_signed, mul_div_mul_comm, ← zpow_sub₀ two_ne_zero,
        exponent, zpow_add₀ two_ne_zero, zpow_natCast]
      push_cast
      cases isNegative x <;> cases isNegative y <;> simp <;> ring

end

/-! ## Whole numbers -/

theorem nearestCode_one (n : ℕ) : nearestCode n 1 = codeNear (n * stepsPerUnit) := by
  rw [nearestCode_eq_codeNear n Nat.one_pos, Nat.cast_one, div_one, Nat.cast_mul]

theorem isNearest_ofNat (n : ℕ) : IsNearest (ofNat n) n := by
  have defined : nearestCode n 1 ≤ infinityCode := Nat.min_le_right _ _
  refine ⟨?_, fun less => absurd less (not_lt.2 n.cast_nonneg), fun _ => ?_⟩
  · rw [ofNat, nearest, code_ofCode defined, nearestCode_one, Nat.abs_cast]
  · exact isNegative_ofCode defined

/-- Whole numbers up to `2 ^ 53` are floats. -/
theorem toReal_ofNat {n : ℕ} (few : n ≤ 2 ^ 53) :
    code (ofNat n) < infinityCode ∧ toReal (ofNat n) = n :=
  (isNearest_ofNat n).exact (isFloat_natCast few)

/-- Rounding to a whole number takes the one that is nearest, with its sign, to a float. -/
theorem isNearest_roundHalfAway {x : Float} (finite : code x < infinityCode) :
    IsNearest (roundHalfAway x)
      (signed (isNegative x) ((2 * steps (code x) + stepsPerUnit) / (2 * stepsPerUnit))) := by
  rw [roundHalfAway, isFinite_eq, decide_eq_true finite, if_pos rfl]
  dsimp only
  generalize (2 * steps (code x) + stepsPerUnit) / (2 * stepsPerUnit) = n
  have defined : nearestCode n 1 ≤ infinityCode := Nat.min_le_right _ _
  refine ⟨?_, fun less => ?_, fun more => ?_⟩
  · rw [code_ofCode defined, nearestCode_one, abs_signed]
  · rw [isNegative_ofCode defined]
    cases sign : isNegative x with
    | true => rfl
    | false => exact absurd (cast_signed false n ▸ sign ▸ less) (not_lt.2 n.cast_nonneg)
  · rw [isNegative_ofCode defined]
    cases sign : isNegative x with
    | false => rfl
    | true =>
      rw [sign, cast_signed, if_pos rfl] at more
      exact absurd more (not_lt.2 (neg_nonpos.2 n.cast_nonneg))

/-- Rounding to a whole number does not overflow. -/
theorem finite_roundHalfAway {x : Float} (finite : code x < infinityCode) :
    code (roundHalfAway x) < infinityCode := by
  refine (isNearest_roundHalfAway finite).finite_of_abs_le_add_one finite ?_
  have unit := stepsPerUnit_pos
  rw [abs_signed, abs_toReal finite, div_add_one unit.ne', le_div_iff₀ unit]
  have quotient := Nat.div_mul_le_self (2 * steps (code x) + stepsPerUnit) (2 * stepsPerUnit)
  generalize (2 * steps (code x) + stepsPerUnit) / (2 * stepsPerUnit) = n at quotient ⊢
  have quotient' : (n : ℝ) * (2 * stepsPerUnit) ≤ 2 * steps (code x) + stepsPerUnit := by
    exact_mod_cast quotient
  linarith

/-- Rounding to a whole number keeps a bound that is a power of two, and gives zero or at least one. -/
theorem roundHalfAway_spec {x : Float} {k : ℕ} (finite : code x < infinityCode)
    (limit : k ≤ 1023) (bounded : |toReal x| ≤ 2 ^ k) :
    code (roundHalfAway x) < infinityCode ∧ |toReal (roundHalfAway x)| ≤ 2 ^ k ∧
      (toReal (roundHalfAway x) ≠ 0 → 1 ≤ |toReal (roundHalfAway x)|) := by
  have nearest := isNearest_roundHalfAway finite
  have magnitude : steps (code x) ≤ 2 ^ k * stepsPerUnit := by
    rw [abs_toReal finite, div_le_iff₀ stepsPerUnit_pos] at bounded
    exact_mod_cast bounded
  have unit : 0 < stepsPerUnit := by decide
  have small : (2 * steps (code x) + stepsPerUnit) / (2 * stepsPerUnit) ≤ 2 ^ k := by
    refine Nat.le_of_lt_succ ((Nat.div_lt_iff_lt_mul (by omega)).2 ?_)
    calc 2 * steps (code x) + stepsPerUnit
        < 2 * (2 ^ k * stepsPerUnit) + 2 * stepsPerUnit := by omega
      _ = (2 ^ k + 1) * (2 * stepsPerUnit) := by ring
  generalize (2 * steps (code x) + stepsPerUnit) / (2 * stepsPerUnit) = n at nearest small
  have inside : |(signed (isNegative x) n : ℝ)| ≤ 2 ^ k := by
    rw [abs_signed]
    exact_mod_cast small
  obtain ⟨finite', bounded'⟩ := nearest.abs_toReal_le (isFloat_two_pow limit) inside
  refine ⟨finite', bounded', fun nonzero => ?_⟩
  refine nearest.le_abs_toReal finite' isFloat_one ?_
  rw [abs_signed, Nat.one_le_cast]
  refine Nat.pos_of_ne_zero ?_
  rintro rfl
  refine nonzero ((nearest.exact ?_).2.trans ?_)
  · rw [cast_signed, Nat.cast_zero, neg_zero, ite_self]
    exact isFloat_zero
  · rw [cast_signed, Nat.cast_zero, neg_zero, ite_self]

/-- Rounding down is that of the exact magnitude. -/
theorem floorNat_eq {x : Float} (finite : code x < infinityCode) : floorNat x = ⌊|toReal x|⌋₊ := by
  rw [abs_toReal finite, Nat.floor_div_eq_div]
  rfl

/-- Rounding up is that of the exact magnitude. -/
theorem ceilNat_eq {x : Float} (finite : code x < infinityCode) : ceilNat x = ⌈|toReal x|⌉₊ := by
  have unit : 0 < stepsPerUnit := by decide
  refine eq_of_forall_ge_iff fun n => ?_
  rw [ceilNat, Nat.div_le_iff_le_mul_add_pred unit, Nat.ceil_le, abs_toReal finite,
    div_le_iff₀ stepsPerUnit_pos, ← Nat.cast_mul, Nat.cast_le, Nat.mul_comm n, add_le_add_iff_right]

end Formulae.Number
