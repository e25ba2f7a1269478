import Formulae.Proofs.Number.Place

/-!
# Numbers from zero to infinity

`Nonnegative` holds of a finite float that is not below zero and of infinity.  It holds of the float
nearest to a number that is not below zero, which may be too great to be finite, and is kept by
quotients and sums with finite numbers of the same kind.

Such numbers are ordered as their codes, infinity included, and so quotients and sums are monotone in
codes (`code_div_le_code`, `code_add_le_code`).  So is the whole number below such a number, which
decides the comparisons with whole numbers (`ofNat_le_iff`).  Added to any finite number, a greater one
takes the sum to a greater place (`place_add_le_place_add`).
-/

namespace Formulae.Number

open Float.Model (UnpackedFloat)
open Float.Model.UnpackedFloat

/-- A finite float that is not below zero, or infinity. -/
inductive Nonnegative (x : Float) : Prop where
  | finite : code x < infinityCode → 0 ≤ toReal x → Nonnegative x
  | infinite : x.toModel.unpack = .infinity .positive → Nonnegative x

namespace Nonnegative

variable {x y z : Float} {v : ℝ}

theorem of_isNearest (nearest : IsNearest x v) (nonneg : 0 ≤ v) : Nonnegative x := by
  rcases nearest.code_le_infinityCode.lt_or_eq with small | whole
  · refine finite small ?_
    rw [nearest.toReal_of_nonneg small nonneg]
    positivity
  · refine infinite ?_
    have positive : 0 < v := by
      refine nonneg.lt_of_ne ?_
      rintro rfl
      have zero := nearest.magnitude
      rw [abs_zero, zero_mul, codeNear_zero, whole] at zero
      exact absurd zero (by decide)
    rw [unpack_eq, whole, nearest.positive positive, parts_infinite]
    rfl

/-- Infinity stays what it is when it is divided by a positive number or multiplied with it. -/
theorem div_mul_of_infinite (whole : x.toModel.unpack = .infinity .positive)
    (small : code y < infinityCode) (positive : 0 < toReal y) : x / y = x ∧ x * y = x := by
  obtain ⟨m, e, positive', -, -, parted, -⟩ :=
    (unpack_of_finite small).resolve_left fun zero => positive.ne' zero.2
  have sign : isNegative y = false := (isNearest_toReal small).positive positive
  rw [sign] at parted
  exact ⟨pack_eq (by rw [whole, parted]; rfl), pack_eq (by rw [whole, parted]; rfl)⟩

/-- Infinity stays what it is when it is added to a finite number, in either order. -/
theorem add_of_infinite (whole : x.toModel.unpack = .infinity .positive)
    (small : code y < infinityCode) : x + y = x ∧ y + x = x := by
  rcases unpack_of_finite small with ⟨parted, -⟩ | ⟨m, e, positive, -, -, parted, -⟩
  · exact ⟨pack_eq (by rw [whole, parted]; rfl), pack_eq (by rw [whole, parted]; rfl)⟩
  · exact ⟨pack_eq (by rw [whole, parted]; rfl), pack_eq (by rw [whole, parted]; rfl)⟩

theorem div (nonnegative : Nonnegative x) (small : code y < infinityCode) (positive : 0 < toReal y) :
    Nonnegative (x / y) := by
  cases nonnegative with
  | finite small' nonneg =>
    exact of_isNearest (isNearest_div small' small positive.ne') (div_nonneg nonneg positive.le)
  | infinite whole =>
    rw [(div_mul_of_infinite whole small positive).1]
    exact infinite whole

theorem add (nonnegative : Nonnegative x) (small : code y < infinityCode) (nonneg : 0 ≤ toReal y) :
    Nonnegative (x + y) := by
  cases nonnegative with
  | finite small' nonneg' =>
    exact of_isNearest (isNearest_add small' small) (add_nonneg nonneg' nonneg)
  | infinite whole =>
    rw [(add_of_infinite whole small).1]
    exact infinite whole

/-- What is not at least a finite number is finite and less. -/
theorem of_not_le (nonnegative : Nonnegative x) (small : code z < infinityCode) (before : ¬ z ≤ x) :
    code x < infinityCode ∧ 0 ≤ toReal x ∧ toReal x < toReal z := by
  cases nonnegative with
  | finite small' nonneg =>
    rw [le_iff small small', not_le] at before
    exact ⟨small', nonneg, before⟩
  | infinite whole =>
    refine absurd ?_ before
    change decide (z.toModel ≤ x.toModel) = true
    rw [decide_eq_true_iff]
    change ((z.toModel.unpack.compare x.toModel.unpack).any (·.isLE)) = true
    rw [whole]
    rcases unpack_of_finite small with ⟨zero, -⟩ | ⟨m, e, positive, -, -, parted, -⟩
    · rw [zero]
      rfl
    · rw [parted]
      cases isNegative z <;> rfl

/-! ## Codes as an order -/

theorem code_of_infinite (whole : x.toModel.unpack = .infinity .positive) :
    code x = infinityCode := by
  have infinite : x.isInf = true := by
    change x.toModel.unpack.isInf = true
    rw [whole]
    rfl
  rwa [isInf_eq, decide_eq_true_iff] at infinite

theorem code_le_infinityCode (nonnegative : Nonnegative x) : code x ≤ infinityCode := by
  cases nonnegative with
  | finite small => exact small.le
  | infinite whole => exact (code_of_infinite whole).le

theorem toReal_eq (nonnegative : Nonnegative x) (small : code x < infinityCode) :
    toReal x = steps (code x) / stepsPerUnit := by
  cases nonnegative with
  | finite _ nonneg => rw [← abs_toReal small, abs_of_nonneg nonneg]
  | infinite whole => exact absurd (code_of_infinite whole) small.ne

theorem toReal_nonneg (nonnegative : Nonnegative x) (small : code x < infinityCode) :
    0 ≤ toReal x := by
  rw [nonnegative.toReal_eq small]
  positivity

theorem toReal_le_of_code_le (nonnegative : Nonnegative x) (nonnegative' : Nonnegative y)
    (small : code y < infinityCode) (before : code x ≤ code y) : toReal x ≤ toReal y := by
  rw [nonnegative.toReal_eq (before.trans_lt small), nonnegative'.toReal_eq small]
  exact div_le_div_of_nonneg_right (Nat.cast_le.2 (steps_strictMono.monotone before))
    stepsPerUnit_pos.le

/-- Below a finite number all are finite, and otherwise the greater one is infinity. -/
theorem ordered_or_infinite (nonnegative : Nonnegative x) (nonnegative' : Nonnegative y)
    (before : code x ≤ code y) :
    (code x < infinityCode ∧ code y < infinityCode ∧ 0 ≤ toReal x ∧ toReal x ≤ toReal y) ∨
      y.toModel.unpack = .infinity .positive := by
  cases nonnegative' with
  | finite finite' nonneg' =>
    have finite := before.trans_lt finite'
    exact .inl ⟨finite, finite', nonnegative.toReal_nonneg finite,
      nonnegative.toReal_le_of_code_le (.finite finite' nonneg') finite' before⟩
  | infinite whole => exact .inr whole

/-- A greater dividend and a lesser divisor have a greater quotient. -/
theorem code_div_le_code {s s' : Float} (nonnegative : Nonnegative x) (nonnegative' : Nonnegative y)
    (before : code x ≤ code y) (small : code s < infinityCode) (small' : code s' < infinityCode)
    (positive : 0 < toReal s') (lesser : toReal s' ≤ toReal s) : code (x / s) ≤ code (y / s') := by
  have positive' := positive.trans_le lesser
  rcases nonnegative.ordered_or_infinite nonnegative' before with
    ⟨finite, finite', nonneg, ordered⟩ | whole
  · refine (isNearest_div finite small positive'.ne').code_le_code
      (isNearest_div finite' small' positive.ne') ?_
    rw [abs_of_nonneg (div_nonneg nonneg positive'.le),
      abs_of_nonneg (div_nonneg (nonneg.trans ordered) positive.le)]
    exact div_le_div₀ (nonneg.trans ordered) ordered positive lesser
  · rw [(div_mul_of_infinite whole small' positive).1, code_of_infinite whole]
    exact (nonnegative.div small positive').code_le_infinityCode

/-- A greater summand has a greater sum. -/
theorem code_add_le_code (nonnegative : Nonnegative x) (nonnegative' : Nonnegative y)
    (before : code x ≤ code y) (small : code z < infinityCode) (nonneg : 0 ≤ toReal z) :
    code (x + z) ≤ code (y + z) := by
  rcases nonnegative.ordered_or_infinite nonnegative' before with
    ⟨finite, finite', nonneg', ordered⟩ | whole
  · refine (isNearest_add finite small).code_le_code (isNearest_add finite' small) ?_
    rw [abs_of_nonneg (add_nonneg nonneg' nonneg),
      abs_of_nonneg (add_nonneg (nonneg'.trans ordered) nonneg)]
    exact add_le_add_left ordered _
  · rw [(add_of_infinite whole small).1, code_of_infinite whole]
    exact (nonnegative.add small nonneg).code_le_infinityCode

/-- The whole number below a number tells which whole numbers are at most that number. -/
theorem ofNat_le_iff {n : ℕ} (nonnegative : Nonnegative x) (whole : n ≤ 2 ^ 53) :
    ofNat n ≤ x ↔ n ≤ floorNat x := by
  obtain ⟨small, same⟩ := toReal_ofNat whole
  rcases nonnegative.code_le_infinityCode.lt_or_eq with finite | infinite
  · rw [le_iff small finite, same, nonnegative.toReal_eq finite, le_div_iff₀ stepsPerUnit_pos,
      floorNat, Nat.le_div_iff_mul_le (by decide)]
    norm_cast
  · have great : 2 ^ 53 ≤ steps infinityCode / stepsPerUnit := by decide
    refine iff_of_true ?_ ?_
    · by_contra before
      exact (nonnegative.of_not_le small before).1.ne infinite
    · rw [floorNat, infinite]
      exact whole.trans great

/-! ## Places of sums -/

theorem place_of_infinite (whole : x.toModel.unpack = .infinity .positive) :
    place x = infinityCode := by
  have infinite := code_of_infinite whole
  rw [unpack_eq, infinite, parts_infinite] at whole
  rw [place, infinite]
  cases sign : isNegative x with
  | false => rfl
  | true =>
    rw [sign] at whole
    cases whole

theorem code_add_le_infinityCode (nonnegative : Nonnegative x) (small : code z < infinityCode) :
    code (z + x) ≤ infinityCode := by
  cases nonnegative with
  | finite finite' => exact (isNearest_add small finite').code_le_infinityCode
  | infinite whole =>
    rw [(add_of_infinite whole small).2]
    exact (code_of_infinite whole).le

/-- A greater summand takes the sum to a greater place, also where it is infinite. -/
theorem place_add_le_place_add (nonnegative : Nonnegative x) (nonnegative' : Nonnegative y)
    (small : code z < infinityCode) (before : code x ≤ code y) : place (z + x) ≤ place (z + y) := by
  rcases nonnegative.ordered_or_infinite nonnegative' before with
    ⟨finite, finite', -, ordered⟩ | whole
  · exact (isNearest_add small finite).place_le_place (isNearest_add small finite')
      (add_le_add_right ordered _)
  · rw [(add_of_infinite whole small).2, place_of_infinite whole]
    exact (place_le_code _).trans (Int.ofNat_le.2 (nonnegative.code_add_le_infinityCode small))

end Nonnegative

end Formulae.Number
