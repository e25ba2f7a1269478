import Formulae.Proofs.Number.Comparison
import Formulae.Proofs.Number.Operations

/-!
# The places of floats on the number line

`place` counts the floats from zero upwards and downwards.  The two zeros have the same place, and
infinity stands next to the greatest finite float.  All floats but the undefined one are compared by
their places (`lt_iff_place`, `le_iff_place`), and nothing compares with the undefined one.

Rounding keeps the order of numbers also where it overflows (`IsNearest.place_le_place`).  The float
nearest to a number is on its side of zero (`IsNearest.place_nonneg`), and so is a product,
which may be infinite, with a factor that is not negative (`place_mul_spec`).  A product is infinite if
one factor is, and undefined if the other one is zero (`infinite_mul_parts`).
-/

namespace Formulae.Number

open Float.Model (UnpackedFloat)
open Float.Model.UnpackedFloat

/-- The place of a float on the number line, counted in codes. -/
def place (x : Float) : ℤ := signed (isNegative x) (code x)

section

variable {c c' : ℕ} (negative negative' : Bool)

theorem signed_steps_lt_iff :
    signed negative (steps c) < signed negative' (steps c') ↔
      signed negative c < signed negative' c' := by
  have less : steps c < steps c' ↔ c < c' := steps_strictMono.lt_iff_lt
  have more : steps c' < steps c ↔ c' < c := steps_strictMono.lt_iff_lt
  have some : 0 < steps c ↔ 0 < c := steps_strictMono.lt_iff_lt (a := 0)
  have some' : 0 < steps c' ↔ 0 < c' := steps_strictMono.lt_iff_lt (a := 0)
  cases negative <;> cases negative' <;> simp [signed] <;> omega

theorem compare_eq_of_lt_iff {m m' n n' : ℤ} (less : m < n ↔ m' < n') (more : n < m ↔ n' < m') :
    compare m n = compare m' n' := by
  rcases lt_trichotomy m n with before | rfl | after
  · rw [Int.compare_eq_lt.2 before, Int.compare_eq_lt.2 (less.1 before)]
  · rw [Int.compare_eq_eq.2 rfl, Int.compare_eq_eq.2 (by omega)]
  · rw [Int.compare_eq_gt.2 after, Int.compare_eq_gt.2 (more.1 after)]

/-- Finite parts are compared with infinite ones by their codes. -/
theorem compare_infinite (finite : c < infinityCode) :
    (parts negative c).compare (.infinity (sign negative')) =
        some (compare (signed negative c) (signed negative' infinityCode)) ∧
      (UnpackedFloat.infinity (sign negative')).compare (parts negative c) =
        some (compare (signed negative' infinityCode) (signed negative c)) := by
  have after : signed true infinityCode < signed negative c := by
    cases negative <;> simp [signed] <;> omega
  have before : signed negative c < signed false infinityCode := by
    cases negative <;> simp [signed] <;> omega
  cases negative' with
  | false =>
    rw [Int.compare_eq_lt.2 before, Int.compare_eq_gt.2 before]
    rcases parts_finite finite with zero | ⟨m, e, positive, whole⟩
    · rw [zero]
      exact ⟨rfl, rfl⟩
    · rw [whole]
      cases negative <;> exact ⟨rfl, rfl⟩
  | true =>
    rw [Int.compare_eq_gt.2 after, Int.compare_eq_lt.2 after]
    rcases parts_finite finite with zero | ⟨m, e, positive, whole⟩
    · rw [zero]
      exact ⟨rfl, rfl⟩
    · rw [whole]
      cases negative <;> exact ⟨rfl, rfl⟩

end

section

variable {x y : Float}

/-- Floats that are not undefined are compared by their places. -/
theorem compare_places (defined : code x ≤ infinityCode) (defined' : code y ≤ infinityCode) :
    x.toModel.unpack.compare y.toModel.unpack = some (compare (place x) (place y)) := by
  rw [unpack_eq, unpack_eq, place, place]
  generalize code x = c at *
  generalize code y = c' at *
  generalize isNegative x = negative
  generalize isNegative y = negative'
  rcases defined.lt_or_eq with finite | rfl
  · rcases defined'.lt_or_eq with finite' | rfl
    · rw [compare_parts _ _ finite finite']
      exact congrArg some (compare_eq_of_lt_iff (signed_steps_lt_iff _ _) (signed_steps_lt_iff _ _))
    · rw [parts_infinite]
      exact (compare_infinite negative negative' finite).1
  · rw [parts_infinite]
    rcases defined'.lt_or_eq with finite' | rfl
    · exact (compare_infinite negative' negative finite').2
    · rw [parts_infinite]
      cases negative <;> cases negative' <;> decide

theorem isNaN_eq_false_iff : x.isNaN = false ↔ code x ≤ infinityCode := by
  rw [isNaN_eq, decide_eq_false_iff_not, not_lt]

theorem compare_undefined (undefined : ¬ (x.isNaN = false ∧ y.isNaN = false)) :
    x.toModel.unpack.compare y.toModel.unpack = none := by
  rw [isNaN_eq_false_iff, isNaN_eq_false_iff] at undefined
  rw [unpack_eq, unpack_eq]
  rcases not_and_or.1 undefined with first | second
  · rw [parts_undefined (not_le.1 first)]
    rfl
  · rw [parts_undefined (not_le.1 second)]
    generalize parts (isNegative x) (code x) = u
    cases u with
    | infinity s | finite s => cases s <;> rfl
    | notANumber | zero => rfl

theorem lt_iff_place :
    x < y ↔ (x.isNaN = false ∧ y.isNaN = false) ∧ place x < place y := by
  change decide (x.toModel < y.toModel) = true ↔ _
  rw [decide_eq_true_iff]
  change (x.toModel.unpack.compare y.toModel.unpack == some .lt) = true ↔ _
  by_cases defined : x.isNaN = false ∧ y.isNaN = false
  · rw [compare_places (isNaN_eq_false_iff.1 defined.1) (isNaN_eq_false_iff.1 defined.2),
      and_iff_right defined, ← Int.compare_eq_lt]
    generalize compare (place x) (place y) = o
    cases o <;> decide
  · rw [compare_undefined defined]
    exact iff_of_false (by decide) fun both => defined both.1

theorem le_iff_place :
    x ≤ y ↔ (x.isNaN = false ∧ y.isNaN = false) ∧ place x ≤ place y := by
  change decide (x.toModel ≤ y.toModel) = true ↔ _
  rw [decide_eq_true_iff]
  change ((x.toModel.unpack.compare y.toModel.unpack).any (·.isLE)) = true ↔ _
  by_cases defined : x.isNaN = false ∧ y.isNaN = false
  · rw [compare_places (isNaN_eq_false_iff.1 defined.1) (isNaN_eq_false_iff.1 defined.2),
      and_iff_right defined, ← Int.isLE_compare]
    rfl
  · rw [compare_undefined defined]
    exact iff_of_false (by decide) fun both => defined both.1

end

theorem place_zero : place 0 = 0 := by decide

theorem place_le_code (x : Float) : place x ≤ code x := by
  rw [place, signed]
  split <;> omega

theorem neg_code_le_place (x : Float) : -(code x : ℤ) ≤ place x := by
  rw [place, signed]
  split <;> omega

/-! ## Whole numbers -/

section

variable (n : ℕ)

theorem isNegative_ofNat : isNegative (ofNat n) = false :=
  isNegative_ofCode (Nat.min_le_right _ _)

theorem code_ofNat_le : code (ofNat n) ≤ infinityCode := (isNearest_ofNat n).code_le_infinityCode

variable {n}

theorem code_ofNat_pos (some : 0 < n) : 0 < code (ofNat n) := by
  have atLeastOne : |toReal 1| ≤ |(n : ℝ)| := by
    rw [toReal_one, abs_one, Nat.abs_cast]
    exact Nat.one_le_cast.2 some
  calc 0 < code 1 := by decide
    _ ≤ code (ofNat n) :=
      (isNearest_toReal finite_one).code_le_code (isNearest_ofNat n) atLeastOne

theorem ofNat_pos (some : 0 < n) : 0 < ofNat n := by
  rw [lt_iff_place, isNaN_eq_false_iff, isNaN_eq_false_iff, place_zero, place, isNegative_ofNat]
  exact ⟨⟨by decide, code_ofNat_le n⟩, Int.natCast_pos.2 (code_ofNat_pos some)⟩

end

/-! ## Signs of products -/

section

variable {x y : Float} {v : ℝ}

theorem IsNearest.place_of_nonneg (nearest : IsNearest x v) (nonneg : 0 ≤ v) :
    place x = code x := by
  rcases nonneg.lt_or_eq with above | rfl
  · rw [place, nearest.positive above]
    rfl
  · rw [place, nearest.code_eq_zero]
    cases isNegative x <;> rfl

theorem IsNearest.place_of_nonpos (nearest : IsNearest x v) (nonpos : v ≤ 0) :
    place x = -code x := by
  rcases nonpos.lt_or_eq with below | rfl
  · rw [place, nearest.negative below]
    rfl
  · rw [place, nearest.code_eq_zero]
    cases isNegative x <;> rfl

theorem IsNearest.place_nonneg (nearest : IsNearest x v) (nonneg : 0 ≤ v) : 0 ≤ place x := by
  rw [nearest.place_of_nonneg nonneg]
  exact Int.natCast_nonneg _

theorem IsNearest.place_nonpos (nearest : IsNearest x v) (nonpos : v ≤ 0) : place x ≤ 0 := by
  rw [nearest.place_of_nonpos nonpos]
  exact Int.neg_nonpos_of_nonneg (Int.natCast_nonneg _)

/-- A greater number has a float at a greater place, which may be infinite. -/
theorem IsNearest.place_le_place {w : ℝ} (nearest : IsNearest x v) (nearest' : IsNearest y w)
    (le : v ≤ w) : place x ≤ place y := by
  rcases le_total 0 w with nonneg' | nonpos'
  · rcases le_total 0 v with nonneg | nonpos
    · have before := nearest.code_le_code nearest' (by
        rwa [abs_of_nonneg nonneg, abs_of_nonneg nonneg'])
      rw [nearest.place_of_nonneg nonneg, nearest'.place_of_nonneg nonneg']
      exact Int.ofNat_le.2 before
    · exact (nearest.place_nonpos nonpos).trans (nearest'.place_nonneg nonneg')
  · have nonpos := le.trans nonpos'
    have before := nearest'.code_le_code nearest (by
      rw [abs_of_nonpos nonpos, abs_of_nonpos nonpos']
      exact neg_le_neg le)
    rw [nearest.place_of_nonpos nonpos, nearest'.place_of_nonpos nonpos']
    exact Int.neg_le_neg (Int.ofNat_le.2 before)

/-- A product with an infinite factor is infinite, unless the other factor is zero or undefined. -/
theorem infinite_mul_parts (negative negative' : Bool) (c : ℕ) :
    UnpackedFloat.mul .binary64 (.infinity (sign negative)) (parts negative' c) =
      if 0 < c ∧ c ≤ infinityCode then parts (negative ^^ negative') infinityCode
      else .notANumber := by
  rw [parts_infinite, ← sign_mul_sign]
  rcases lt_trichotomy c infinityCode with finite | rfl | undefined
  · rcases Nat.eq_zero_or_pos c with rfl | some
    · rfl
    · obtain ⟨m, k, positive, -, -, whole⟩ := exists_parts some.ne' finite
      rw [if_pos ⟨some, finite.le⟩, whole]
      rfl
  · rw [parts_infinite, if_pos ⟨by decide, le_rfl⟩]
    rfl
  · rw [parts_undefined undefined, if_neg fun both => both.2.not_gt undefined]
    rfl

theorem infinite_mul_spec (infinite : code x = infinityCode)
    (other : 0 < code y ∧ code y ≤ infinityCode) :
    isNegative (x * y) = (isNegative x ^^ isNegative y) ∧ code (x * y) = infinityCode := by
  refine of_toBits_eq_word le_rfl ?_
  have product : x * y = Float.ofModel (.pack
    (UnpackedFloat.mul .binary64 x.toModel.unpack y.toModel.unpack)) := rfl
  rw [unpack_eq, unpack_eq y, infinite, parts_infinite, infinite_mul_parts, if_pos other] at product
  rw [product]
  exact toNat_pack_parts le_rfl

theorem infinite_mul_undefined (infinite : code x = infinityCode)
    (other : ¬ (0 < code y ∧ code y ≤ infinityCode)) : infinityCode < code (x * y) := by
  have product : x * y = Float.ofModel (.pack
    (UnpackedFloat.mul .binary64 x.toModel.unpack y.toModel.unpack)) := rfl
  rw [unpack_eq, unpack_eq y, infinite, parts_infinite, infinite_mul_parts, if_neg other] at product
  rw [product]
  decide

theorem isNegative_infinite_mul (infinite : code x = infinityCode)
    (defined : code (x * y) ≤ infinityCode) :
    isNegative (x * y) = (isNegative x ^^ isNegative y) := by
  by_cases other : 0 < code y ∧ code y ≤ infinityCode
  · exact (infinite_mul_spec infinite other).1
  · exact absurd defined (infinite_mul_undefined infinite other).not_ge

/-- A product with a factor that is not negative is nowhere on the other side of zero. -/
theorem place_mul_spec (defined : code x ≤ infinityCode) (defined' : code y ≤ infinityCode)
    (positive : isNegative y = false) (product : code (x * y) ≤ infinityCode) :
    (isNegative x = false → 0 ≤ place (x * y)) ∧ (isNegative x = true → place (x * y) ≤ 0) := by
  by_cases finite : code x < infinityCode ∧ code y < infinityCode
  · have nearest := isNearest_mul finite.1 finite.2
    have nonneg : 0 ≤ toReal y := by
      rw [toReal_eq_steps finite.2 positive]
      positivity
    refine ⟨fun above => nearest.place_nonneg (mul_nonneg ?_ nonneg),
      fun below => nearest.place_nonpos (mul_nonpos_of_nonpos_of_nonneg ?_ nonneg)⟩
    · rw [toReal_eq_steps finite.1 above]
      positivity
    · rw [toReal_eq_neg_steps finite.1 below]
      exact neg_nonpos.2 (by positivity)
  · have sameSign : isNegative (x * y) = isNegative x := by
      rcases defined.eq_or_lt with infinite | small
      · rw [isNegative_infinite_mul infinite product, positive, Bool.xor_false]
      · have infinite : code y = infinityCode := defined'.antisymm (not_lt.1 (not_and.1 finite small))
        rw [Number.mul_comm] at product ⊢
        rw [isNegative_infinite_mul infinite product, positive, Bool.false_xor]
    rw [place, sameSign]
    refine ⟨fun above => ?_, fun below => ?_⟩
    · rw [above]
      exact Int.natCast_nonneg _
    · rw [below]
      exact Int.neg_nonpos_of_nonneg (Int.natCast_nonneg _)

end

end Formulae.Number
