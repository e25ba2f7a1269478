import Mathlib.Algebra.Order.Archimedean.Real.Basic
import Mathlib.Algebra.Order.Floor.Semifield
import Mathlib.Tactic.Linarith
import Formulae.Proofs.Number.Real

/-!
# The float nearest to a real number

`codeNear` is the code of the magnitude that is nearest to a real number of steps, a tie going to the
even code.  It grows with the number (`codeNear_mono`) and leaves the magnitudes of the grid where
they are (`codeNear_steps`).  `nearestCode` is the same for fractions (`nearestCode_eq_codeNear`).

`IsNearest x v` says that `x` is the float that `v` is rounded to, up to the sign of zero.  Nothing
more is needed about an operation than that its result is nearest to the exact one.

* Rounding keeps an order (`IsNearest.toReal_le_toReal`).
* Between two floats it stays between them (`IsNearest.between`), so that bounds that are floats are
  bounds of rounded results too, without any error.
* A number that is a float is kept (`IsNearest.exact`).

Numbers of at most 53 digits are floats (`isFloat_mul_two_zpow`).
-/

namespace Formulae.Number

/-! ## The nearest code -/

/-- The better of two neighbouring codes for a magnitude of `v` steps. -/
noncomputable def closer (c : ℕ) (v : ℝ) : ℕ :=
  if 2 * v < steps c + steps (c + 1) then c
  else if steps c + steps (c + 1) < 2 * v then c + 1
  else if c % 2 = 0 then c else c + 1

/-- The code nearest to a magnitude of `v` steps. -/
noncomputable def codeNear (v : ℝ) : ℕ := min (closer (codeAtMost ⌊v⌋₊) v) infinityCode

section

variable {c d : ℕ} {v w : ℝ}

theorem le_closer (c : ℕ) (v : ℝ) : c ≤ closer c v := by
  unfold closer
  split_ifs <;> omega

theorem closer_le (c : ℕ) (v : ℝ) : closer c v ≤ c + 1 := by
  unfold closer
  split_ifs <;> omega

theorem closer_mono (c : ℕ) (le : v ≤ w) : closer c v ≤ closer c w := by
  unfold closer
  split_ifs <;> first | omega | exfalso; linarith

/-- A number of steps lies between the magnitudes of neighbouring codes. -/
theorem exists_steps_le_lt (nonneg : 0 ≤ v) : ∃ c, (steps c : ℝ) ≤ v ∧ v < steps (c + 1) := by
  obtain ⟨least, greatest⟩ := codeAtMost_spec ⌊v⌋₊
  refine ⟨codeAtMost ⌊v⌋₊, ?_, ?_⟩
  · exact (Nat.cast_le.2 least).trans (Nat.floor_le nonneg)
  · exact (Nat.lt_floor_add_one v).trans_le (by exact_mod_cast greatest)

theorem codeAtMost_eq {n : ℕ} (least : steps c ≤ n) (greatest : n < steps (c + 1)) :
    codeAtMost n = c := by
  obtain ⟨least', greatest'⟩ := codeAtMost_spec n
  have notBefore : c < codeAtMost n + 1 := steps_strictMono.lt_iff_lt.1 (least.trans_lt greatest')
  have notAfter : codeAtMost n < c + 1 := steps_strictMono.lt_iff_lt.1 (least'.trans_lt greatest)
  omega

theorem codeNear_eq (least : (steps c : ℝ) ≤ v) (greatest : v < steps (c + 1)) :
    codeNear v = min (closer c v) infinityCode := by
  have nonneg : 0 ≤ v := (Nat.cast_nonneg _).trans least
  rw [codeNear, codeAtMost_eq (Nat.le_floor least) ((Nat.floor_lt nonneg).2 greatest)]

theorem codeNear_le_infinityCode (v : ℝ) : codeNear v ≤ infinityCode := min_le_right _ _

/-- A greater number of steps has a greater nearest code. -/
theorem codeNear_mono (nonneg : 0 ≤ v) (le : v ≤ w) : codeNear v ≤ codeNear w := by
  obtain ⟨c, least, greatest⟩ := exists_steps_le_lt nonneg
  obtain ⟨d, least', greatest'⟩ := exists_steps_le_lt (nonneg.trans le)
  rw [codeNear_eq least greatest, codeNear_eq least' greatest']
  refine min_le_min_right _ ?_
  have ordered : c < d + 1 := by
    refine steps_strictMono.lt_iff_lt.1 ?_
    exact_mod_cast (least.trans le).trans_lt greatest'
  rcases Nat.lt_or_eq_of_le (Nat.le_of_lt_succ ordered) with before | rfl
  · exact (closer_le c v).trans (Nat.succ_le_of_lt before |>.trans (le_closer d w))
  · exact closer_mono c le

/-- A magnitude of the grid is its own nearest one. -/
theorem codeNear_steps (defined : c ≤ infinityCode) : codeNear (steps c) = c := by
  have next : (steps c : ℝ) < steps (c + 1) := Nat.cast_lt.2 (steps_lt_steps_succ c)
  rw [codeNear_eq le_rfl next, closer, if_pos (by linarith), min_eq_left defined]

theorem codeNear_zero : codeNear 0 = 0 := by
  have zero := codeNear_steps (Nat.zero_le infinityCode)
  rwa [show steps 0 = 0 from rfl, Nat.cast_zero] at zero

theorem nearestCode_eq_codeNear (numerator : ℕ) {denominator : ℕ} (positive : 0 < denominator) :
    nearestCode numerator denominator =
      codeNear ((numerator * stepsPerUnit : ℕ) / (denominator : ℝ)) := by
  have scale : (0 : ℝ) < denominator := Nat.cast_pos.2 positive
  rw [nearestCode, codeNear, Nat.floor_div_eq_div, closer]
  generalize numerator * stepsPerUnit = scaled
  generalize codeAtMost (scaled / denominator) = c
  have below : 2 * ((scaled : ℝ) / denominator) < steps c + steps (c + 1) ↔
      2 * scaled < (steps c + steps (c + 1)) * denominator := by
    rw [← mul_div_assoc, div_lt_iff₀ scale]
    norm_cast
  have above : (steps c + steps (c + 1) : ℝ) < 2 * ((scaled : ℝ) / denominator) ↔
      (steps c + steps (c + 1)) * denominator < 2 * scaled := by
    rw [← mul_div_assoc, lt_div_iff₀ scale]
    norm_cast
  simp only [below, above]

end

/-! ## Exact values -/

section

variable {x : Float}

theorem cast_one_shiftLeft (k : ℕ) : ((1 <<< k : ℕ) : ℝ) = 2 ^ (k : ℤ) := by
  rw [Nat.one_shiftLeft, Nat.cast_pow, Nat.cast_ofNat, zpow_natCast]

theorem stepsPerUnit_eq_zpow : (stepsPerUnit : ℝ) = 2 ^ (1074 : ℤ) := cast_one_shiftLeft 1074

theorem stepsPerUnit_pos : (0 : ℝ) < stepsPerUnit := Nat.cast_pos.2 (by decide)

/-- A bound that is a power of two, from a comparison of whole numbers. -/
theorem toReal_le_two_pow {k : ℕ} (finite : code x < infinityCode)
    (units : signedSteps x ≤ (1 <<< k : ℕ) * stepsPerUnit) : toReal x ≤ 2 ^ k := by
  rw [toReal_of_finite finite, div_le_iff₀ stepsPerUnit_pos, ← zpow_natCast, ← cast_one_shiftLeft]
  refine (Int.cast_le.2 units).trans_eq ?_
  rw [Int.cast_mul, Int.cast_natCast, Int.cast_natCast]

theorem toReal_eq_steps (finite : code x < infinityCode) (positive : isNegative x = false) :
    toReal x = steps (code x) / stepsPerUnit := by
  rw [toReal_of_finite finite, signedSteps, positive]
  rfl

theorem toReal_eq_neg_steps (finite : code x < infinityCode) (negative : isNegative x = true) :
    toReal x = -(steps (code x) / stepsPerUnit) := by
  rw [toReal_of_finite finite, signedSteps, negative, if_pos rfl, Int.cast_neg, neg_div]
  rfl

theorem abs_toReal (finite : code x < infinityCode) :
    |toReal x| = steps (code x) / stepsPerUnit := by
  have nonneg : (0 : ℝ) ≤ steps (code x) / stepsPerUnit := by positivity
  cases sign : isNegative x with
  | false => rw [toReal_eq_steps finite sign, abs_of_nonneg nonneg]
  | true => rw [toReal_eq_neg_steps finite sign, abs_neg, abs_of_nonneg nonneg]

end

/-! ## Numbers that are floats -/

/-- The number is the value of a finite float. -/
def IsFloat (v : ℝ) : Prop := ∃ z : Float, code z < infinityCode ∧ toReal z = v

section

variable {v : ℝ}

theorem isFloat_toReal {x : Float} (finite : code x < infinityCode) : IsFloat (toReal x) :=
  ⟨x, finite, rfl⟩

theorem isFloat_steps {c : ℕ} (finite : c < infinityCode) : IsFloat (steps c / stepsPerUnit) := by
  have sameCode : code (ofCode false c) = c := code_ofCode finite.le
  refine ⟨ofCode false c, by rwa [sameCode], ?_⟩
  rw [toReal_eq_steps (by rwa [sameCode]) (isNegative_ofCode finite.le), sameCode]

theorem isFloat_zero : IsFloat 0 := by
  have zero := isFloat_steps (c := 0) (by decide)
  rwa [show steps 0 = 0 from rfl, Nat.cast_zero, zero_div] at zero

theorem IsFloat.neg (isFloat : IsFloat v) : IsFloat (-v) := by
  obtain ⟨z, finite, rfl⟩ := isFloat
  exact ⟨-z, (neg_of_defined finite.le).1.trans_lt finite, toReal_neg z⟩

/-- A mantissa of at most 53 digits is that of a code, some binades up. -/
theorem exists_steps_eq {n : ℕ} (small : n ≤ 2 * binade) (k : ℕ) : ∃ c, steps c = n * 2 ^ k := by
  induction k generalizing n with
  | zero =>
    rw [Nat.pow_zero, Nat.mul_one]
    by_cases large : binade ≤ n
    · have magnitude := steps_mul_add 0 large small
      rw [Nat.pow_zero, Nat.mul_one] at magnitude
      exact ⟨_, magnitude⟩
    · exact ⟨n, steps_of_lt (Nat.not_le.1 large)⟩
  | succ k induction =>
    by_cases large : binade ≤ n
    · exact ⟨_, steps_mul_add (k + 1) large small⟩
    · rw [Nat.pow_succ', ← Nat.mul_assoc]
      exact induction (by omega)

theorem steps_infinityCode : steps infinityCode = 2 ^ 52 * 2 ^ 2046 := by decide +kernel

/-- A number of at most 53 digits is a float, if it is neither too great nor too fine. -/
theorem isFloat_mul_two_zpow {n : ℕ} {e : ℤ} (small : n ≤ 2 ^ 53) (fine : -1074 ≤ e)
    (bounded : (n : ℝ) * 2 ^ e ≤ 2 ^ (1023 : ℤ)) : IsFloat (n * 2 ^ e) := by
  obtain ⟨k, exponent⟩ : ∃ k : ℕ, e = k - 1074 := ⟨(e + 1074).toNat, by omega⟩
  obtain ⟨c, magnitude⟩ := exists_steps_eq (n := n) small k
  have value : (n : ℝ) * 2 ^ e = steps c / stepsPerUnit := by
    rw [magnitude, stepsPerUnit_eq_zpow, exponent, zpow_sub₀ two_ne_zero, zpow_natCast]
    push_cast
    ring
  rw [value] at bounded ⊢
  refine isFloat_steps (steps_strictMono.lt_iff_lt.1 ?_)
  rw [div_le_iff₀ stepsPerUnit_pos, stepsPerUnit_eq_zpow, ← zpow_add₀ two_ne_zero] at bounded
  have limit : (steps infinityCode : ℝ) = 2 ^ (2098 : ℤ) := by
    rw [steps_infinityCode, Nat.cast_mul, Nat.cast_pow, Nat.cast_pow, Nat.cast_ofNat,
      ← zpow_natCast, ← zpow_natCast, ← zpow_add₀ two_ne_zero]
    congr 1
  refine Nat.cast_lt (α := ℝ).1 (bounded.trans_lt ?_)
  rw [limit]
  exact zpow_lt_zpow_right₀ one_lt_two (by norm_num)

theorem isFloat_two_pow {k : ℕ} (bounded : k ≤ 1023) : IsFloat (2 ^ k) := by
  have one := isFloat_mul_two_zpow (n := 1) (e := k) (by decide) (by omega) ?_
  · rwa [Nat.cast_one, one_mul, zpow_natCast] at one
  · rw [Nat.cast_one, one_mul]
    exact zpow_le_zpow_right₀ one_le_two (by omega)

/-- A whole number of at most 53 digits is a float, and so are its parts by powers of two. -/
theorem isFloat_natCast_div_two_pow {n k : ℕ} (small : n ≤ 2 ^ 53) (fine : k ≤ 1074) :
    IsFloat (n / 2 ^ k) := by
  have scaled := isFloat_mul_two_zpow (e := -k) small (by omega) ?_
  · rwa [zpow_neg, zpow_natCast, ← div_eq_mul_inv] at scaled
  · calc (n : ℝ) * 2 ^ (-k : ℤ)
        ≤ (2 : ℝ) ^ (53 : ℤ) * 2 ^ (0 : ℤ) :=
          mul_le_mul (by exact_mod_cast small) (zpow_le_zpow_right₀ one_le_two (by omega))
            (zpow_pos two_pos _).le (zpow_pos two_pos _).le
      _ = 2 ^ (53 : ℤ) := by rw [zpow_zero, mul_one]
      _ ≤ 2 ^ (1023 : ℤ) := zpow_le_zpow_right₀ one_le_two (by norm_num)

theorem isFloat_one_div_two_pow {k : ℕ} (bounded : k ≤ 1074) : IsFloat (1 / 2 ^ k) := by
  have one := isFloat_natCast_div_two_pow (n := 1) (by decide) bounded
  rwa [Nat.cast_one] at one

theorem isFloat_natCast {n : ℕ} (small : n ≤ 2 ^ 53) : IsFloat n := by
  have whole := isFloat_natCast_div_two_pow small (Nat.zero_le 1074)
  rwa [pow_zero, div_one] at whole

theorem isFloat_one : IsFloat 1 := by
  have one := isFloat_natCast (n := 1) (by decide)
  rwa [Nat.cast_one] at one

end

/-! ## Nearest floats -/

/-- The float is the nearest one to a real number, up to the sign of zero. -/
structure IsNearest (x : Float) (v : ℝ) : Prop where
  /-- The magnitude is the nearest one. -/
  magnitude : code x = codeNear (|v| * stepsPerUnit)
  /-- A negative number has a negative nearest float. -/
  negative : v < 0 → isNegative x = true
  /-- A positive number has a positive nearest float. -/
  positive : 0 < v → isNegative x = false

theorem isNearest_toReal {x : Float} (finite : code x < infinityCode) : IsNearest x (toReal x) where
  magnitude := by
    rw [abs_toReal finite, div_mul_cancel₀ _ stepsPerUnit_ne_zero, codeNear_steps finite.le]
  negative below := by
    cases sign : isNegative x with
    | true => rfl
    | false =>
      rw [toReal_eq_steps finite sign] at below
      exact absurd below (not_lt.2 (by positivity))
  positive above := by
    cases sign : isNegative x with
    | false => rfl
    | true =>
      rw [toReal_eq_neg_steps finite sign] at above
      exact absurd above (not_lt.2 (neg_nonpos.2 (by positivity)))

namespace IsNearest

variable {x y z : Float} {u v w : ℝ}

/-- Only the zeros are nearest to zero. -/
theorem code_eq_zero (nearest : IsNearest x 0) : code x = 0 := by
  rw [nearest.magnitude, abs_zero, zero_mul, codeNear_zero]

theorem toReal_of_nonneg (nearest : IsNearest x v) (finite : code x < infinityCode)
    (nonneg : 0 ≤ v) : toReal x = steps (code x) / stepsPerUnit := by
  rcases nonneg.lt_or_eq with above | rfl
  · exact toReal_eq_steps finite (nearest.positive above)
  · rw [toReal_of_finite finite, signedSteps_eq, nearest.code_eq_zero, signed_zero]
    simp [steps]

theorem toReal_of_nonpos (nearest : IsNearest x v) (finite : code x < infinityCode)
    (nonpos : v ≤ 0) : toReal x = -(steps (code x) / stepsPerUnit) := by
  rcases nonpos.lt_or_eq with below | rfl
  · exact toReal_eq_neg_steps finite (nearest.negative below)
  · rw [nearest.toReal_of_nonneg finite le_rfl, nearest.code_eq_zero]
    simp [steps]

theorem code_le_code (nearest : IsNearest x v) (nearest' : IsNearest y w) (le : |v| ≤ |w|) :
    code x ≤ code y := by
  rw [nearest.magnitude, nearest'.magnitude]
  exact codeNear_mono (by positivity) (mul_le_mul_of_nonneg_right le stepsPerUnit_pos.le)

theorem code_le_infinityCode (nearest : IsNearest x v) : code x ≤ infinityCode :=
  nearest.magnitude.trans_le (codeNear_le_infinityCode _)

theorem steps_le_steps (nearest : IsNearest x v) (nearest' : IsNearest y w) (le : |v| ≤ |w|) :
    (steps (code x) : ℝ) / stepsPerUnit ≤ steps (code y) / stepsPerUnit := by
  have ordered := steps_strictMono.monotone (nearest.code_le_code nearest' le)
  exact div_le_div_of_nonneg_right (Nat.cast_le.2 ordered) stepsPerUnit_pos.le

/-- Rounding keeps an order. -/
theorem toReal_le_toReal (nearest : IsNearest x v) (nearest' : IsNearest y w)
    (finite : code x < infinityCode) (finite' : code y < infinityCode) (le : v ≤ w) :
    toReal x ≤ toReal y := by
  rcases le_total 0 v with nonneg | nonpos
  · have nonneg' := nonneg.trans le
    rw [nearest.toReal_of_nonneg finite nonneg, nearest'.toReal_of_nonneg finite' nonneg']
    exact nearest.steps_le_steps nearest' (by rwa [abs_of_nonneg nonneg, abs_of_nonneg nonneg'])
  · rw [nearest.toReal_of_nonpos finite nonpos]
    rcases le_total 0 w with nonneg' | nonpos'
    · rw [nearest'.toReal_of_nonneg finite' nonneg']
      exact (neg_nonpos.2 (by positivity)).trans (by positivity)
    · rw [nearest'.toReal_of_nonpos finite' nonpos', neg_le_neg_iff]
      refine nearest'.steps_le_steps nearest ?_
      rw [abs_of_nonpos nonpos, abs_of_nonpos nonpos']
      exact neg_le_neg le

/-- A number that is no greater than a float has a finite nearest float. -/
theorem finite_of_abs_le (nearest : IsNearest x v) (finite : code z < infinityCode)
    (le : |v| ≤ |toReal z|) : code x < infinityCode :=
  (nearest.code_le_code (isNearest_toReal finite) le).trans_lt finite

/-- Between two floats rounding stays between them. -/
theorem between (nearest : IsNearest x v) (isFloat : IsFloat u) (isFloat' : IsFloat w)
    (least : u ≤ v) (greatest : v ≤ w) :
    code x < infinityCode ∧ u ≤ toReal x ∧ toReal x ≤ w := by
  obtain ⟨z, finite, rfl⟩ := isFloat
  obtain ⟨z', finite', rfl⟩ := isFloat'
  have whole : code x < infinityCode := by
    rcases le_total 0 v with nonneg | nonpos
    · refine nearest.finite_of_abs_le finite' ?_
      rw [abs_of_nonneg nonneg]
      exact greatest.trans (le_abs_self _)
    · refine nearest.finite_of_abs_le finite ?_
      rw [abs_of_nonpos nonpos]
      exact (neg_le_neg least).trans (neg_le_abs _)
  exact ⟨whole, (isNearest_toReal finite).toReal_le_toReal nearest finite whole least,
    nearest.toReal_le_toReal (isNearest_toReal finite') whole finite' greatest⟩

/-- A bound of the magnitude stays one. -/
theorem abs_toReal_le (nearest : IsNearest x v) (isFloat : IsFloat w) (bounded : |v| ≤ w) :
    code x < infinityCode ∧ |toReal x| ≤ w := by
  obtain ⟨least, greatest⟩ := abs_le.1 bounded
  obtain ⟨finite, least', greatest'⟩ := nearest.between isFloat.neg isFloat least greatest
  exact ⟨finite, abs_le.2 ⟨least', greatest'⟩⟩

/-- A number that is at least a positive float is so after rounding. -/
theorem le_of_le (nearest : IsNearest x v) (finite : code x < infinityCode) (isFloat : IsFloat w)
    (le : w ≤ v) : w ≤ toReal x := by
  obtain ⟨z, finite', rfl⟩ := isFloat
  exact (isNearest_toReal finite').toReal_le_toReal nearest finite' finite le

/-- A number that is at most a float is so after rounding. -/
theorem ge_of_ge (nearest : IsNearest x v) (finite : code x < infinityCode) (isFloat : IsFloat w)
    (ge : v ≤ w) : toReal x ≤ w := by
  obtain ⟨z, finite', rfl⟩ := isFloat
  exact nearest.toReal_le_toReal (isNearest_toReal finite') finite finite' ge

/-- A magnitude that is at least a float is so after rounding. -/
theorem le_abs_toReal (nearest : IsNearest x v) (finite : code x < infinityCode) (isFloat : IsFloat w)
    (le : w ≤ |v|) : w ≤ |toReal x| := by
  rcases le_total 0 v with nonneg | nonpos
  · rw [abs_of_nonneg nonneg] at le
    exact (nearest.le_of_le finite isFloat le).trans (le_abs_self _)
  · rw [abs_of_nonpos nonpos] at le
    have below := nearest.ge_of_ge finite isFloat.neg (le_neg_of_le_neg le)
    exact (le_neg_of_le_neg below).trans (neg_le_abs _)

/-- A number that is a float is not rounded. -/
theorem exact (nearest : IsNearest x v) (isFloat : IsFloat v) :
    code x < infinityCode ∧ toReal x = v := by
  obtain ⟨finite, least, greatest⟩ := nearest.between isFloat isFloat le_rfl le_rfl
  exact ⟨finite, greatest.antisymm least⟩

end IsNearest

/-! ## The room above the greatest float -/

/-- How far the greatest magnitude is from the next one. -/
theorem steps_last_gap :
    steps (infinityCode - 1) + 2 * stepsPerUnit < steps (infinityCode - 1 + 1) := by
  decide

/-- One more than the greatest magnitude is rounded back to it. -/
theorem codeNear_lt_infinityCode {v : ℝ} (nonneg : 0 ≤ v)
    (small : v ≤ steps (infinityCode - 1) + stepsPerUnit) : codeNear v < infinityCode := by
  have room : (steps (infinityCode - 1) : ℝ) + 2 * stepsPerUnit < steps (infinityCode - 1 + 1) := by
    exact_mod_cast steps_last_gap
  have unit := stepsPerUnit_pos
  refine (codeNear_mono nonneg small).trans_lt ?_
  rw [codeNear_eq (c := infinityCode - 1) (by linarith) (by linarith), closer, if_pos (by linarith)]
  exact (Nat.min_le_left _ _).trans_lt (by decide)

/-- A number that exceeds a finite float by one at most does not overflow. -/
theorem IsNearest.finite_of_abs_le_add_one {x p : Float} {v : ℝ} (nearest : IsNearest x v)
    (finite : code p < infinityCode) (near : |v| ≤ |toReal p| + 1) : code x < infinityCode := by
  rw [nearest.magnitude]
  refine codeNear_lt_infinityCode (by positivity) ?_
  have greatest : (steps (code p) : ℝ) ≤ steps (infinityCode - 1) :=
    Nat.cast_le.2 (steps_strictMono.monotone (Nat.le_pred_of_lt finite))
  calc |v| * stepsPerUnit
      ≤ (|toReal p| + 1) * stepsPerUnit := mul_le_mul_of_nonneg_right near stepsPerUnit_pos.le
    _ = steps (code p) + stepsPerUnit := by
        rw [abs_toReal finite, add_mul, div_mul_cancel₀ _ stepsPerUnit_ne_zero, one_mul]
    _ ≤ steps (infinityCode - 1) + stepsPerUnit := by linarith

end Formulae.Number
