import Mathlib.Algebra.Group.Nat.Defs
import Formulae.Proofs.Number.Bits

/-!
# Equality of floats

Two equalities of floats are in use: `=`, which tells the two zeros apart, and the comparison `==`,
which does not, and which no undefined value passes.  `SameNumber` stands between them: it is `=`
with the two zeros taken as one.  On finite floats it is the comparison (`sameNumber_of_beq`,
`SameNumber.beq`).

Operations take floats apart, so `Alike` says the same of unpacked floats.  A float is put together
again from what it is taken apart into (`ofModel_pack_unpack`), the undefined value included, since
only one bit pattern stands for it.  So the laws of an operation follow from those on unpacked
floats, by `Alike.pack` and `Alike.pack_left`.
-/

namespace Formulae.Number

open Float.Model (UnpackedFloat)
open Float.Model.UnpackedFloat

/-! ## Putting floats together -/

/-- Only one bit pattern stands for the undefined value. -/
theorem bits_of_undefined {x : Float} (undefined : x.toModel.unpack = .notANumber) :
    x.toBits.toBitVec = packedNaN .binary64 := by
  have valid := x.toModel.valid.eq_packedNaN
  change UnpackedFloat.unpack .binary64 x.toBits.toBitVec = .notANumber at undefined
  unfold UnpackedFloat.unpack at undefined
  dsimp only at undefined
  by_cases ones : @unpackExponent .binary64 x.toBits.toBitVec = -1#11
  · refine valid ones ?_
    intro (infinite : @unpackMantissa .binary64 x.toBits.toBitVec = 0#52)
    rw [if_pos ones, if_pos infinite] at undefined
    cases undefined
  · rw [if_neg ones] at undefined
    by_cases none : @unpackExponent .binary64 x.toBits.toBitVec = 0#11
    · rw [if_pos none] at undefined
      by_cases zero : @unpackMantissa .binary64 x.toBits.toBitVec = 0#52
      · rw [dif_pos zero] at undefined
        cases undefined
      · rw [dif_neg zero] at undefined
        cases undefined
    · rw [if_neg none] at undefined
      cases undefined

/-- A float is put together from what it is taken apart into. -/
theorem ofModel_pack_unpack (x : Float) : Float.ofModel (.pack x.toModel.unpack) = x := by
  apply ext_of_toBits
  change (UnpackedFloat.pack .binary64 x.toModel.unpack).toNat = _
  by_cases defined : code x ≤ infinityCode
  · rw [toNat_toBits, ← toNat_pack_parts defined, ← unpack_eq]
  · have undefined : x.toModel.unpack = .notANumber := by
      rw [unpack_eq, parts_undefined (Nat.not_le.1 defined)]
    rw [undefined]
    exact congrArg BitVec.toNat (bits_of_undefined undefined).symm

theorem pack_eq {u : UnpackedFloat} {x : Float} (same : u = x.toModel.unpack) :
    Float.ofModel (.pack u) = x := by
  rw [same, ofModel_pack_unpack]

theorem unpack_pack_zero (s : Sign) : (Float.Model.pack (.zero s)).unpack = .zero s := by
  cases s <;> rfl

/-! ## Negation and finiteness -/

theorem neg_of_undefined {x : Float} (undefined : infinityCode < code x) :
    infinityCode < code (-x) := by
  have bits : (-x).toBits.toNat =
      (UnpackedFloat.pack .binary64 x.toModel.unpack.neg).toNat := rfl
  rw [unpack_eq, parts_undefined undefined] at bits
  rw [code, bits]
  decide

theorem neg_of_defined {x : Float} (defined : code x ≤ infinityCode) :
    code (-x) = code x ∧ isNegative (-x) = !isNegative x := by
  rw [← ofCode_code defined, neg_ofCode defined, code_ofCode defined, code_ofCode defined,
    isNegative_ofCode defined, isNegative_ofCode defined]
  exact ⟨rfl, rfl⟩

theorem unpack_neg (x : Float) : (-x).toModel.unpack = x.toModel.unpack.neg := by
  by_cases defined : code x ≤ infinityCode
  · obtain ⟨sameCode, flipped⟩ := neg_of_defined defined
    rw [unpack_eq, unpack_eq, sameCode, flipped, neg_parts defined]
  · have undefined := Nat.not_le.1 defined
    rw [unpack_eq, unpack_eq, parts_undefined undefined,
      parts_undefined (neg_of_undefined undefined)]
    rfl

theorem isFinite_of_not {x : Float} (notNaN : ¬ x.isNaN = true) (notInf : ¬ x.isInf = true) :
    x.isFinite = true := by
  simp only [isNaN_eq, isInf_eq, isFinite_eq, decide_eq_true_eq] at notNaN notInf ⊢
  omega

theorem isFinite_neg (x : Float) : (-x).isFinite = x.isFinite := by
  change (-x).toModel.unpack.isFinite = x.toModel.unpack.isFinite
  rw [unpack_neg]
  cases x.toModel.unpack with
  | notANumber | infinity | zero | finite => rfl

/-! ## Equality of unpacked floats -/

/-- The same unpacked float, or two zeros. -/
inductive Alike : UnpackedFloat → UnpackedFloat → Prop where
  | same (u : UnpackedFloat) : Alike u u
  | zeros (s s' : Sign) : Alike (.zero s) (.zero s')

namespace Alike

variable {u v w : UnpackedFloat}

theorem symm (alike : Alike u v) : Alike v u := by
  cases alike with
  | same => exact .same u
  | zeros s s' => exact .zeros s' s

theorem trans (first : Alike u v) (second : Alike v w) : Alike u w := by
  cases first with
  | same => exact second
  | zeros s s' =>
    cases second with
    | same => exact .zeros s s'
    | zeros _ s'' => exact .zeros s s''

/-- What compares equal is alike. -/
theorem of_compare (equal : u.compare v = some .eq) : Alike u v := by
  cases u with
  | notANumber => cases equal
  | infinity s =>
    cases v with
    | infinity s' => cases s <;> cases s' <;> first | exact .same _ | cases equal
    | notANumber | zero | finite => cases s <;> cases equal
  | zero s =>
    cases v with
    | zero s' => exact .zeros s s'
    | notANumber => cases equal
    | infinity s' | finite s' => cases s' <;> cases equal
  | finite s m e =>
    cases v with
    | notANumber => cases equal
    | infinity s' | zero s' => cases s <;> cases s' <;> cases equal
    | finite s' m' e' =>
      cases s <;> cases s' <;> dsimp only [UnpackedFloat.compare] at equal <;>
        simp [Ordering.then_eq_eq] at equal <;>
        · obtain ⟨rfl, rfl⟩ := equal
          exact .same _

theorem compare (alike : Alike u v) (defined : u.isNaN = false) : u.compare v = some .eq := by
  cases alike with
  | zeros => rfl
  | same =>
    cases u with
    | notANumber => cases defined
    | infinity s => cases s <;> rfl
    | zero => rfl
    | finite s => cases s <;> dsimp only [UnpackedFloat.compare] <;> simp

theorem isFinite_eq (alike : Alike u v) : u.isFinite = v.isFinite := by
  cases alike with
  | same => rfl
  | zeros => rfl

end Alike

/-! ## Equality of floats -/

/-- The same float, or two zeros. -/
def SameNumber (x y : Float) : Prop := Alike x.toModel.unpack y.toModel.unpack

section

variable {x y z : Float} {u v : UnpackedFloat}

theorem Alike.pack_left (alike : Alike u x.toModel.unpack) :
    SameNumber (.ofModel (.pack u)) x := by
  unfold SameNumber
  generalize shape : x.toModel.unpack = v at alike
  cases alike with
  | same =>
    rw [pack_eq shape.symm, shape]
    exact .same u
  | zeros s s' =>
    rw [unpack_pack_zero]
    exact .zeros s s'

theorem Alike.pack (alike : Alike u v) :
    SameNumber (.ofModel (.pack u)) (.ofModel (.pack v)) := by
  cases alike with
  | same => exact .same _
  | zeros s s' =>
    unfold SameNumber
    rw [unpack_pack_zero, unpack_pack_zero]
    exact .zeros s s'

namespace SameNumber

theorem refl (x : Float) : SameNumber x x := .same _

theorem symm (same : SameNumber x y) : SameNumber y x := Alike.symm same

theorem trans (first : SameNumber x y) (second : SameNumber y z) : SameNumber x z :=
  Alike.trans first second

theorem isFinite_eq (same : SameNumber x y) : x.isFinite = y.isFinite := Alike.isFinite_eq same

/-- A float that is not a zero has no other float with the same number. -/
theorem eq (same : SameNumber x y) (nonzero : ∀ s, y.toModel.unpack ≠ .zero s) : x = y := by
  unfold SameNumber at same
  generalize shape : y.toModel.unpack = v at same nonzero
  generalize shape' : x.toModel.unpack = u at same
  cases same with
  | same => rw [← pack_eq shape'.symm, pack_eq shape.symm]
  | zeros s s' => exact absurd rfl (nonzero s')

/-- A finite float compares equal to one with the same number. -/
theorem beq (same : SameNumber x y) (finite : x.isFinite = true) : (x == y) = true := by
  have defined : x.toModel.unpack.isNaN = false := by
    change x.toModel.unpack.isFinite = true at finite
    cases shape : x.toModel.unpack with
    | notANumber =>
      rw [shape] at finite
      cases finite
    | infinity | zero | finite => rfl
  have equal := Alike.compare same defined
  change (x.toModel.unpack.compare y.toModel.unpack == some .eq) = true
  rw [equal]
  rfl

end SameNumber

/-- Two zeros compare alike with everything. -/
theorem SameNumber.beq_congr (same : SameNumber x y) (z : Float) : (x == z) = (y == z) := by
  unfold SameNumber at same
  change (x.toModel.unpack.compare z.toModel.unpack == some .eq) =
    (y.toModel.unpack.compare z.toModel.unpack == some .eq)
  generalize x.toModel.unpack = u at same ⊢
  generalize y.toModel.unpack = v at same ⊢
  cases same with
  | same => rfl
  | zeros s s' =>
    cases z.toModel.unpack with
    | notANumber | zero => rfl
    | infinity t | finite t => cases t <;> rfl

theorem sameNumber_of_beq (same : (x == y) = true) : SameNumber x y := by
  change (x.toModel.unpack.compare y.toModel.unpack == some .eq) = true at same
  exact Alike.of_compare (eq_of_beq same)

/-! ## Digits -/

@[simp] theorem isFinite_zero : (0 : Float).isFinite = true := rfl

@[simp] theorem isFinite_one : (1 : Float).isFinite = true := rfl

@[simp] theorem isFinite_two : (2 : Float).isFinite = true := rfl

@[simp] theorem isFinite_negativeOne : (-1 : Float).isFinite = true := by
  rw [isFinite_neg, isFinite_one]

theorem unpack_one : (1 : Float).toModel.unpack = .finite .positive (2 ^ 52) (-52) (by decide) :=
  rfl

theorem unpack_negativeOne :
    (-1 : Float).toModel.unpack = .finite .negative (2 ^ 52) (-52) (by decide) := by
  rw [unpack_neg, unpack_one]
  rfl

/-- Only the two zeros compare equal to zero. -/
theorem eq_zero_of_beq (same : (x == 0) = true) : x = 0 ∨ x = -0 := by
  have zero : (0 : Float).toModel.unpack = .zero .positive := rfl
  have negativeZero : (-0 : Float).toModel.unpack = .zero .negative := by
    rw [unpack_neg, zero]
    rfl
  have alike : Alike x.toModel.unpack (.zero .positive) := sameNumber_of_beq same
  generalize shape : x.toModel.unpack = u at alike
  cases alike with
  | same => exact .inl (by rw [← pack_eq shape.symm, pack_eq zero.symm])
  | zeros s =>
    cases s with
    | positive => exact .inl (by rw [← pack_eq shape.symm, pack_eq zero.symm])
    | negative => exact .inr (by rw [← pack_eq shape.symm, pack_eq negativeZero.symm])

/-- Floats that compare equal are the same, but for the negative zero. -/
theorem eq_of_beq_of_ne (same : (x == y) = true) (signless : x ≠ -0) (signless' : y ≠ -0) :
    x = y := by
  by_cases zero : (y == 0) = true
  · obtain rfl := (eq_zero_of_beq zero).resolve_right signless'
    exact (eq_zero_of_beq same).resolve_right signless
  · refine (sameNumber_of_beq same).eq fun s shape => zero ?_
    change (y.toModel.unpack.compare (.zero .positive) == some .eq) = true
    rw [shape]
    rfl

/-- Only one float compares equal to one. -/
theorem eq_one_of_beq (same : (x == 1) = true) : x = 1 := by
  refine (sameNumber_of_beq same).eq ?_
  intro s zero
  rw [unpack_one] at zero
  cases zero

/-- Only one float compares equal to minus one. -/
theorem eq_negativeOne_of_beq (same : (x == -1) = true) : x = -1 := by
  refine (sameNumber_of_beq same).eq ?_
  intro s zero
  rw [unpack_negativeOne] at zero
  cases zero

end

/-! ## Divisions by zero -/

section

variable {x : Float}

/-- An infinite float is a quotient by zero. -/
theorem eq_of_isInf (infinite : x.isInf = true) : x = if x < 0 then -1 / 0 else 1 / 0 := by
  have quotients (negative : Bool) : ofCode negative infinityCode =
      if ofCode negative infinityCode < 0 then -1 / 0 else 1 / 0 := by
    cases negative with
    | false => decide
    | true => decide
  rw [isInf_eq, decide_eq_true_eq] at infinite
  rw [← ofCode_code (Nat.le_of_eq infinite), infinite]
  exact quotients (isNegative x)

/-- An undefined float is the quotient of two zeros. -/
theorem eq_of_isNaN (undefined : x.isNaN = true) : x = 0 / 0 := by
  rw [isNaN_eq, decide_eq_true_eq] at undefined
  have shape : x.toModel.unpack = .notANumber := by rw [unpack_eq, parts_undefined undefined]
  exact (pack_eq shape.symm).symm

/-- The floats that are not finite. -/
theorem eq_of_not_finite (infinite : ¬ code x < infinityCode) :
    x = 1 / 0 ∨ x = -1 / 0 ∨ x = 0 / 0 := by
  rcases Nat.eq_or_lt_of_le (Nat.le_of_not_lt infinite) with whole | undefined
  · have quotient := eq_of_isInf (x := x) (by rw [isInf_eq, decide_eq_true whole.symm])
    split at quotient
    next => exact Or.inr (Or.inl quotient)
    next => exact Or.inl quotient
  · exact Or.inr (Or.inr (eq_of_isNaN (by rw [isNaN_eq, decide_eq_true undefined])))

end

end Formulae.Number
