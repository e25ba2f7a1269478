import Formulae.Proofs.Number.Nearest

/-!
# How far rounding moves a number

The float nearest to a number is at least as near as any other finite float (`IsNearest.dist_le`).

Floats are whole numbers of steps, and so are their differences and their products with whole numbers
(`IsWhole`).  A whole number of steps is a magnitude of the grid itself, or it lies between two
neighbours whose mantissas are large (`exists_mantissa`).  So rounding changes it by at most the part
`2 ^ -52` of it (`IsNearest.relative_error`), without an exception for numbers close to zero, and the
float below it is as close (`IsNearest.exists_isFloat_le`).

For the same reason rounding keeps the multiples of a power of two (`IsNearest.exists_multiple`): where
the neighbours are closer together than that, the multiple is one of them.
-/

namespace Formulae.Number

variable {x y z : Float} {v : ℝ}

/-! ## The nearest magnitude -/

/-- The better one of two neighbours is at least as near as any magnitude. -/
theorem abs_closer_le {c : ℕ} {w : ℝ} (least : (steps c : ℝ) ≤ w) (greatest : w < steps (c + 1))
    (d : ℕ) : |(steps (closer c w) : ℝ) - w| ≤ |(steps d : ℝ) - w| := by
  have lower : |(steps c : ℝ) - w| = w - steps c := by
    rw [abs_sub_comm, abs_of_nonneg (sub_nonneg.2 least)]
  have upper : |(steps (c + 1) : ℝ) - w| = steps (c + 1) - w :=
    abs_of_pos (sub_pos.2 greatest)
  -- No magnitude lies between the two neighbours.
  have outside : w - steps c ≤ |(steps d : ℝ) - w| ∨ steps (c + 1) - w ≤ |(steps d : ℝ) - w| := by
    rcases Nat.lt_or_ge c d with after | notAfter
    · have beyond : (steps (c + 1) : ℝ) ≤ steps d :=
        Nat.cast_le.2 (steps_strictMono.monotone after)
      exact .inr ((sub_le_sub_right beyond w).trans (le_abs_self _))
    · have before : (steps d : ℝ) ≤ steps c := Nat.cast_le.2 (steps_strictMono.monotone notAfter)
      rw [abs_sub_comm]
      exact .inl ((sub_le_sub_left before w).trans (le_abs_self _))
  unfold closer
  split_ifs with nearer farther even
  · rw [lower]
    rcases outside with far | far <;> linarith
  · rw [upper]
    rcases outside with far | far <;> linarith
  · rw [lower]
    rcases outside with far | far <;> linarith
  · rw [upper]
    rcases outside with far | far <;> linarith

namespace IsNearest

/-- Rounding keeps the sign, so that it moves the number as far as its magnitude. -/
theorem abs_toReal_sub (nearest : IsNearest x v) (finite : code x < infinityCode) :
    |toReal x - v| = |(steps (code x) : ℝ) - |v| * stepsPerUnit| / stepsPerUnit := by
  have unit := stepsPerUnit_pos
  have scaled : |toReal x - v| = |(steps (code x) : ℝ) / stepsPerUnit - (|v|)| := by
    rcases le_total 0 v with nonneg | nonpos
    · rw [nearest.toReal_of_nonneg finite nonneg, abs_of_nonneg nonneg]
    · rw [nearest.toReal_of_nonpos finite nonpos, abs_of_nonpos nonpos, ← abs_neg]
      congr 1
      ring
  rw [scaled, ← abs_of_pos unit, ← abs_div, abs_of_pos unit, sub_div,
    mul_div_cancel_right₀ _ unit.ne']

theorem abs_steps_le (nearest : IsNearest x v) (finite : code x < infinityCode) (d : ℕ) :
    |(steps (code x) : ℝ) - |v| * stepsPerUnit| ≤ |(steps d : ℝ) - |v| * stepsPerUnit| := by
  obtain ⟨c, least, greatest⟩ := exists_steps_le_lt (v := |v| * stepsPerUnit) (by positivity)
  have found := nearest.magnitude
  rw [codeNear_eq least greatest] at found
  rw [found] at finite
  rw [found, Nat.min_eq_left (by omega)]
  exact abs_closer_le least greatest d

/-- The nearest float is at least as near as any other one. -/
theorem dist_le (nearest : IsNearest x v) (finite : code x < infinityCode)
    (finite' : code z < infinityCode) : |toReal x - v| ≤ |toReal z - v| := by
  have unit := stepsPerUnit_pos
  calc |toReal x - v|
      = |(steps (code x) : ℝ) - |v| * stepsPerUnit| / stepsPerUnit := nearest.abs_toReal_sub finite
    _ ≤ |(steps (code z) : ℝ) - |v| * stepsPerUnit| / stepsPerUnit :=
        div_le_div_of_nonneg_right (nearest.abs_steps_le finite (code z)) unit.le
    _ = |(|toReal z|) - (|v|)| := by
        rw [abs_toReal finite', ← abs_of_pos unit, ← abs_div, abs_of_pos unit, sub_div,
          mul_div_cancel_right₀ _ unit.ne']
    _ ≤ |toReal z - v| := abs_abs_sub_abs_le _ _

end IsNearest

/-! ## Whole numbers of steps -/

/-- The number is a whole number of steps. -/
def IsWhole (v : ℝ) : Prop := ∃ n : ℤ, v * stepsPerUnit = n

theorem isWhole_toReal (finite : code x < infinityCode) : IsWhole (toReal x) := by
  refine ⟨signedSteps x, ?_⟩
  rw [toReal_of_finite finite, div_mul_cancel₀ _ stepsPerUnit_ne_zero]

namespace IsWhole

variable {u : ℝ}

theorem sub (whole : IsWhole u) (whole' : IsWhole v) : IsWhole (u - v) := by
  obtain ⟨n, same⟩ := whole
  obtain ⟨n', same'⟩ := whole'
  refine ⟨n - n', ?_⟩
  rw [sub_mul, same, same', Int.cast_sub]

theorem natCast_mul (whole : IsWhole v) (i : ℕ) : IsWhole (i * v) := by
  obtain ⟨n, same⟩ := whole
  refine ⟨i * n, ?_⟩
  rw [mul_assoc, same, Int.cast_mul, Int.cast_natCast]

theorem exists_abs (whole : IsWhole v) : ∃ n : ℕ, |v| * stepsPerUnit = n := by
  obtain ⟨n, same⟩ := whole
  refine ⟨n.natAbs, ?_⟩
  rw [← abs_of_pos stepsPerUnit_pos, ← abs_mul, same, Nat.cast_natAbs, Int.cast_abs]

end IsWhole

/-- A whole number of steps lies between the magnitudes of two neighbouring mantissas.  They are large
or one step apart. -/
theorem exists_mantissa (n : ℕ) :
    ∃ c q e, steps c = q * 2 ^ e ∧ steps (c + 1) = (q + 1) * 2 ^ e ∧
      q * 2 ^ e ≤ n ∧ n < (q + 1) * 2 ^ e ∧ (e = 0 ∨ binade ≤ q) := by
  obtain ⟨least, greatest⟩ := codeAtMost_spec n
  generalize codeAtMost n = c at least greatest
  by_cases small : c < binade
  · have next : steps (c + 1) = c + 1 := by
      rcases Nat.lt_or_eq_of_le small with below | whole
      · exact steps_of_lt below
      · have magnitude := steps_mul_add 0 (q := c + 1) whole.ge (by omega)
        rwa [Nat.zero_mul, Nat.zero_add, Nat.pow_zero, Nat.mul_one] at magnitude
    rw [steps_of_lt small] at least
    rw [next] at greatest
    refine ⟨c, c, 0, ?_⟩
    rw [Nat.pow_zero, Nat.mul_one, Nat.mul_one]
    exact ⟨steps_of_lt small, next, least, greatest, .inl rfl⟩
  · obtain ⟨e, q, rfl, large, bounded⟩ := exists_mul_add (Nat.not_lt.1 small)
    have magnitude := steps_mul_add e large bounded.le
    have magnitude' := steps_mul_add e (q := q + 1) (by omega) bounded
    rw [← Nat.add_assoc] at magnitude'
    rw [magnitude] at least
    rw [magnitude'] at greatest
    exact ⟨e * binade + q, q, e, magnitude, magnitude', least, greatest, .inr large⟩

/-- The magnitude below a whole number of steps is a small part of it away. -/
theorem exists_steps_near (n : ℕ) :
    ∃ c, steps c ≤ n ∧ n < steps (c + 1) ∧ (n - steps c) * 2 ^ 52 ≤ n := by
  obtain ⟨c, q, e, least, next, atMost, less, large⟩ := exists_mantissa n
  refine ⟨c, least.trans_le atMost, less.trans_eq next.symm, ?_⟩
  rw [least]
  rcases large with rfl | large
  · rw [Nat.pow_zero, Nat.mul_one] at atMost less ⊢
    omega
  · have more : 2 ^ 52 * 2 ^ e ≤ q * 2 ^ e := Nat.mul_le_mul_right _ large
    have part : n - q * 2 ^ e ≤ 2 ^ e := by
      rw [Nat.add_mul] at less
      omega
    calc (n - q * 2 ^ e) * 2 ^ 52 ≤ 2 ^ e * 2 ^ 52 := Nat.mul_le_mul_right _ part
      _ = 2 ^ 52 * 2 ^ e := Nat.mul_comm _ _
      _ ≤ n := more.trans atMost

namespace IsNearest

/-- Rounding changes a whole number of steps by a small part of it. -/
theorem relative_error (nearest : IsNearest x v) (finite : code x < infinityCode)
    (whole : IsWhole v) : |toReal x - v| * 2 ^ 52 ≤ |v| := by
  have unit := stepsPerUnit_pos
  obtain ⟨n, same⟩ := whole.exists_abs
  obtain ⟨c, atMost, -, room⟩ := exists_steps_near n
  have near := nearest.abs_steps_le finite c
  rw [nearest.abs_toReal_sub finite, div_mul_eq_mul_div, div_le_iff₀ unit, same] at *
  have distance : |(steps c : ℝ) - n| = (n - steps c : ℕ) := by
    rw [Nat.cast_sub atMost, abs_sub_comm, abs_of_nonneg]
    exact sub_nonneg.2 (Nat.cast_le.2 atMost)
  rw [distance] at near
  calc |(steps (code x) : ℝ) - n| * 2 ^ 52
      ≤ (n - steps c : ℕ) * 2 ^ 52 := mul_le_mul_of_nonneg_right near (by positivity)
    _ ≤ n := by exact_mod_cast room

/-- The float below a whole number of steps is a small part of it away, unless the number is
beyond the floats. -/
theorem exists_isFloat_le (nearest : IsNearest x v) (finite : code x < infinityCode)
    (whole : IsWhole v) (nonneg : 0 ≤ v) : ∃ w, IsFloat w ∧ w ≤ v ∧ (v - w) * 2 ^ 52 ≤ v := by
  have unit := stepsPerUnit_pos
  obtain ⟨n, same⟩ := whole.exists_abs
  obtain ⟨c, atMost, less, room⟩ := exists_steps_near n
  have found := nearest.magnitude
  rw [same, codeNear_eq (Nat.cast_le.2 atMost) (Nat.cast_lt.2 less)] at found
  have lower := le_closer c (n : ℝ)
  rw [abs_of_nonneg nonneg] at same
  refine ⟨_, isFloat_steps (c := c) (by omega), ?_, ?_⟩
  · rw [div_le_iff₀ unit, same, Nat.cast_le]
    exact atMost
  · have part : ((n - steps c : ℕ) : ℝ) * 2 ^ 52 ≤ n := by exact_mod_cast room
    rw [Nat.cast_sub atMost, ← same] at part
    rw [← mul_le_mul_iff_left₀ unit]
    calc (v - steps c / stepsPerUnit) * 2 ^ 52 * stepsPerUnit
        = (v * stepsPerUnit - steps c) * 2 ^ 52 := by field_simp
      _ ≤ v * stepsPerUnit := part

/-- A multiple of a power of two lies between neighbours that are multiples too, or it is one of
them. -/
theorem exists_steps_eq_mul {n j : ℕ} (nearest : IsNearest x v) (finite : code x < infinityCode)
    (multiple : |v| * stepsPerUnit = (n * 2 ^ j : ℕ)) : ∃ m, steps (code x) = m * 2 ^ j := by
  obtain ⟨c, q, e, least, next, atMost, less, -⟩ := exists_mantissa (n * 2 ^ j)
  rcases Nat.le_total j e with coarse | fine
  · -- Both neighbours are multiples.
    obtain ⟨d, rfl⟩ := Nat.exists_eq_add_of_le' coarse
    have found := nearest.magnitude
    rw [multiple, codeNear_eq (c := c) (by exact_mod_cast least.trans_le atMost)
      (by exact_mod_cast less.trans_eq next.symm)] at found
    have lower := le_closer c ((n * 2 ^ j : ℕ) : ℝ)
    have upper := closer_le c ((n * 2 ^ j : ℕ) : ℝ)
    rw [Nat.min_eq_left (by omega)] at found
    rcases Nat.lt_or_eq_of_le upper with before | after
    · refine ⟨q * 2 ^ d, ?_⟩
      rw [found, Nat.le_antisymm (Nat.le_of_lt_succ before) lower, least, Nat.pow_add, Nat.mul_assoc]
    · refine ⟨(q + 1) * 2 ^ d, ?_⟩
      rw [found, after, next, Nat.pow_add, Nat.mul_assoc]
  · -- The neighbours are closer together, so that the number itself is the lower one.
    obtain ⟨d, rfl⟩ := Nat.exists_eq_add_of_le' fine
    rw [Nat.pow_add, ← Nat.mul_assoc] at atMost less
    have same : n * 2 ^ d = q := by
      have scale := Nat.two_pow_pos e
      exact Nat.le_antisymm (Nat.le_of_lt_succ (Nat.lt_of_mul_lt_mul_right less))
        (Nat.le_of_mul_le_mul_right atMost scale)
    have whole : steps c = n * 2 ^ (d + e) := by rw [least, ← same, Nat.pow_add, Nat.mul_assoc]
    have near := nearest.abs_steps_le finite c
    rw [multiple, whole, sub_self, abs_zero, abs_nonpos_iff, sub_eq_zero] at near
    exact ⟨n, by exact_mod_cast near⟩

/-- Rounding keeps the multiples of a power of two. -/
theorem exists_multiple {n k : ℕ} (nearest : IsNearest x (n / 2 ^ k)) (finite : code x < infinityCode)
    (fine : k ≤ 1074) : ∃ m : ℕ, toReal x = m / 2 ^ k := by
  have nonneg : (0 : ℝ) ≤ n / 2 ^ k := by positivity
  obtain ⟨j, unit⟩ := Nat.exists_eq_add_of_le fine
  have scale : (stepsPerUnit : ℝ) = 2 ^ k * 2 ^ j := by
    rw [← pow_add, ← unit, stepsPerUnit_eq_zpow]
    exact zpow_natCast 2 1074
  obtain ⟨m, multiple⟩ := nearest.exists_steps_eq_mul (n := n) (j := j) finite (by
    rw [abs_of_nonneg nonneg, scale]
    push_cast
    field_simp)
  refine ⟨m, ?_⟩
  rw [nearest.toReal_of_nonneg finite nonneg, multiple, scale]
  push_cast
  field_simp

end IsNearest

end Formulae.Number
