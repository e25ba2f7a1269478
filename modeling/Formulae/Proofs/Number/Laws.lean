import Formulae.Proofs.Number.Shifts
import Formulae.Proofs.Number.Equality

/-!
# Laws of float arithmetic

The laws that hold in spite of rounding, as far as two zeros are one number.

* Sums, differences and products of the same numbers are the same numbers, and so are finite
  quotients (`SameNumber.add` and the like).
* A zero changes no sum, a one no product and no quotient, and minus one changes the sign.
* A finite float less itself is zero, and so are a product with zero and a finite quotient of zero.

Multiplying by one adds 52 zeros behind a mantissa and dividing by one adds zeros and takes them
away.  Rounding takes zeros away, because it aims at the exponent that a float has already
(`target_of_unpack`).
-/

namespace Formulae.Number

open Float.Model (UnpackedFloat totalExponent)
open Float.Model.UnpackedFloat hiding round normalize

/-! ## Operations on unpacked floats -/

section

variable {f : Float.Model.Format} {u u' v v' : UnpackedFloat}

theorem alike_add_zero (s : Sign) : Alike (UnpackedFloat.add f u (.zero s)) u := by
  cases u with
  | notANumber | infinity | finite => exact .same _
  | zero s' => cases s' <;> cases s <;> exact .zeros _ _

theorem alike_zero_add (s : Sign) : Alike (UnpackedFloat.add f (.zero s) u) u := by
  cases u with
  | notANumber | infinity | finite => exact .same _
  | zero s' => cases s' <;> cases s <;> exact .zeros _ _

theorem alike_sub_zero (s : Sign) : Alike (UnpackedFloat.sub f u (.zero s)) u := by
  cases u with
  | notANumber | infinity | finite => exact .same _
  | zero s' => cases s' <;> cases s <;> exact .zeros _ _

theorem alike_zero_sub (s : Sign) : Alike (UnpackedFloat.sub f (.zero s) u) u.neg := by
  cases u with
  | notANumber | infinity | finite => exact .same _
  | zero s' => cases s' <;> cases s <;> exact .zeros _ _

theorem Alike.add (first : Alike u u') (second : Alike v v') :
    Alike (UnpackedFloat.add f u v) (UnpackedFloat.add f u' v') := by
  have left : Alike (UnpackedFloat.add f u v) (UnpackedFloat.add f u' v) := by
    cases first with
    | same => exact .same _
    | zeros s s' => exact (alike_zero_add s).trans (alike_zero_add s').symm
  cases second with
  | same => exact left
  | zeros s s' => exact left.trans ((alike_add_zero s).trans (alike_add_zero s').symm)

theorem Alike.sub (first : Alike u u') (second : Alike v v') :
    Alike (UnpackedFloat.sub f u v) (UnpackedFloat.sub f u' v') := by
  have left : Alike (UnpackedFloat.sub f u v) (UnpackedFloat.sub f u' v) := by
    cases first with
    | same => exact .same _
    | zeros s s' => exact (alike_zero_sub s).trans (alike_zero_sub s').symm
  cases second with
  | same => exact left
  | zeros s s' => exact left.trans ((alike_sub_zero s).trans (alike_sub_zero s').symm)

theorem Alike.mul (first : Alike u u') (second : Alike v v') :
    Alike (UnpackedFloat.mul f u v) (UnpackedFloat.mul f u' v') := by
  cases first with
  | same =>
    cases second with
    | same => exact .same _
    | zeros s s' =>
      cases u with
      | notANumber | infinity => exact .same _
      | zero | finite => exact .zeros _ _
  | zeros s s' =>
    cases second with
    | same =>
      cases v with
      | notANumber | infinity => exact .same _
      | zero | finite => exact .zeros _ _
    | zeros => exact .zeros _ _

theorem isFinite_div_zero (s : Sign) : (UnpackedFloat.div f u (.zero s)).isFinite = false := by
  cases u <;> rfl

/-- A quotient by zero is not finite, so only the dividend may change its sign. -/
theorem Alike.div (first : Alike u u') (second : Alike v v')
    (finite : (UnpackedFloat.div f u v).isFinite = true) :
    Alike (UnpackedFloat.div f u v) (UnpackedFloat.div f u' v') := by
  cases second with
  | zeros s s' =>
    rw [isFinite_div_zero] at finite
    cases finite
  | same =>
    cases first with
    | same => exact .same _
    | zeros s s' =>
      cases v with
      | notANumber | zero => exact .same _
      | infinity | finite => exact .zeros _ _

theorem mul_comm_unpacked (u v : UnpackedFloat) :
    UnpackedFloat.mul f u v = UnpackedFloat.mul f v u := by
  have signs : ∀ s s' : Sign, s * s' = s' * s := by
    intro s s'
    cases s <;> cases s' <;> rfl
  cases u <;> cases v <;> first
    | rfl
    | exact congrArg UnpackedFloat.infinity (signs _ _)
    | exact congrArg UnpackedFloat.zero (signs _ _)
    | next s m e _ s' m' e' _ =>
      change roundWithAccuracy f (s * s') (m * m') (e + e') .exact =
        roundWithAccuracy f (s' * s) (m' * m) (e' + e) .exact
      rw [signs, Nat.mul_comm, Int.add_comm]

/-- An operation with a finite result has one before it is put together. -/
theorem isFinite_of_pack (finite : (Float.ofModel (.pack u)).isFinite = true) :
    u.isFinite = true := by
  cases u with
  | zero | finite => rfl
  | infinity s => cases s <;> cases finite
  | notANumber => cases finite

theorem neg_neg_unpacked (u : UnpackedFloat) : u.neg.neg = u := by
  cases u with
  | notANumber => rfl
  | infinity s | zero s | finite s => cases s <;> rfl

end

/-! ## One -/

/-- A finite float has the exponent that rounding aims at. -/
theorem target_of_unpack {x : Float} {s : Sign} {m : Nat} {e : Int} {positive : 0 < m}
    (shape : x.toModel.unpack = .finite s m e positive) :
    Float.Model.Format.binary64.targetExponent (totalExponent m e) = e := by
  rw [unpack_eq] at shape
  rw [targetExponent_eq, totalExponent]
  rcases Nat.lt_trichotomy (code x) infinityCode with finite | infinite | undefined
  · by_cases small : code x < binade
    · by_cases zero : code x = 0
      · rw [zero, parts_zero] at shape
        cases shape
      · rw [parts_subnormal (Nat.pos_of_ne_zero zero) small] at shape
        cases shape
        have fewer : (code x).log2 < 52 := (Nat.log2_lt zero).2 small
        omega
    · rw [parts_normal (Nat.not_lt.1 small) finite] at shape
      cases shape
      have bits : (binade + code x % binade).log2 = 52 := by
        refine (Nat.log2_eq_iff (by omega)).2 ⟨Nat.le_add_right binade _, ?_⟩
        exact Nat.add_lt_add_left (Nat.mod_lt _ binade_pos) binade
      have least : 0 < code x / binade := Nat.div_pos (Nat.not_lt.1 small) binade_pos
      omega
  · rw [infinite, parts_infinite] at shape
    cases shape
  · rw [parts_undefined undefined] at shape
    cases shape

theorem totalExponent_mul_two_pow {m : Nat} (positive : 0 < m) (e : Int) (j : Nat) :
    totalExponent (m * 2 ^ j) (e - j) = totalExponent m e := by
  unfold totalExponent
  rw [log2_mul_two_pow positive]
  omega

section

variable {s s' : Sign} {m : Nat} {e : Int} {positive : 0 < m} {h : 0 < 2 ^ 52}

/-- Zeros behind a mantissa are taken away again. -/
theorem roundWithAccuracy_shifted (j : Nat)
    (target : Float.Model.Format.binary64.targetExponent (totalExponent m e) = e) :
    roundWithAccuracy .binary64 s (m * 2 ^ j) (e - j) .exact = .finite s m e positive := by
  have total := totalExponent_mul_two_pow positive e j
  rw [roundWithAccuracy_exact positive (by rw [total, target]; omega)]
  congr 1
  omega

theorem mul_unpacked_one
    (target : Float.Model.Format.binary64.targetExponent (totalExponent m e) = e) :
    UnpackedFloat.mul .binary64 (.finite s m e positive) (.finite s' (2 ^ 52) (-52) h) =
      .finite (s * s') m e positive :=
  roundWithAccuracy_shifted 52 target

/-- The quotient by one is computed at an exponent that is lower by at most one. -/
theorem divCore_one
    (target : Float.Model.Format.binary64.targetExponent (totalExponent m e) = e) :
    ∃ j : Nat, divCore .binary64 m e (2 ^ 52) (-52) = (m * 2 ^ j, e - j, .exact) := by
  obtain ⟨j, lower⟩ : ∃ j : Nat, min (e - -52) (Float.Model.Format.binary64.targetExponent
      (totalExponent m e - totalExponent (2 ^ 52) (-52))) = e - j := by
    rw [show totalExponent (2 ^ 52) (-52) = 1 by decide]
    rw [targetExponent_eq] at target ⊢
    exact ⟨(e - max (totalExponent m e - 1 - 53) (-1074)).toNat, by omega⟩
  refine ⟨j, ?_⟩
  unfold divCore
  dsimp only
  rw [lower, show (e - -52 - (e - j)).toNat = j + 52 by omega, Nat.shiftLeft_eq, Nat.pow_add,
    ← Nat.mul_assoc, Nat.mul_div_cancel _ (Nat.two_pow_pos 52), Nat.mul_mod_left]
  rfl

theorem div_unpacked_one
    (target : Float.Model.Format.binary64.targetExponent (totalExponent m e) = e) :
    UnpackedFloat.div .binary64 (.finite s m e positive) (.finite s' (2 ^ 52) (-52) h) =
      .finite (s / s') m e positive := by
  obtain ⟨j, core⟩ := divCore_one target
  have quotient : UnpackedFloat.div .binary64 (.finite s m e positive) (.finite s' (2 ^ 52) (-52) h)
      = roundWithAccuracy .binary64 (s / s') (divCore .binary64 m e (2 ^ 52) (-52)).1
        (divCore .binary64 m e (2 ^ 52) (-52)).2.1 (divCore .binary64 m e (2 ^ 52) (-52)).2.2 := rfl
  rw [quotient, core]
  exact roundWithAccuracy_shifted j target

end

/-! ## Laws of floats -/

section

variable {x x' y y' : Float}

theorem SameNumber.add (first : SameNumber x x') (second : SameNumber y y') :
    SameNumber (x + y) (x' + y') :=
  Alike.pack (Alike.add first second)

theorem SameNumber.sub (first : SameNumber x x') (second : SameNumber y y') :
    SameNumber (x - y) (x' - y') :=
  Alike.pack (Alike.sub first second)

theorem SameNumber.mul (first : SameNumber x x') (second : SameNumber y y') :
    SameNumber (x * y) (x' * y') :=
  Alike.pack (Alike.mul first second)

theorem SameNumber.div (first : SameNumber x x') (second : SameNumber y y')
    (finite : (x / y).isFinite = true) : SameNumber (x / y) (x' / y') :=
  Alike.pack (Alike.div first second (isFinite_of_pack finite))

end

section

variable (x : Float)

theorem sameNumber_add_zero : SameNumber (x + 0) x := (alike_add_zero .positive).pack_left

/-- Adding zero takes the sign of a zero away and nothing else. -/
theorem add_zero_eq : x + 0 = if x == 0 then 0 else x := by
  have zero : (0 : Float).toModel.unpack = .zero .positive := rfl
  have sum : x + 0 = Float.ofModel
      (.pack (UnpackedFloat.add .binary64 x.toModel.unpack (.zero .positive))) := rfl
  have same : (x == 0) = (x.toModel.unpack.compare (.zero .positive) == some .eq) := rfl
  rw [sum, same]
  cases shape : x.toModel.unpack with
  | notANumber => exact pack_eq shape.symm
  | infinity s => cases s <;> exact pack_eq shape.symm
  | zero s => cases s <;> exact pack_eq zero.symm
  | finite s m e => cases s <;> exact pack_eq shape.symm

theorem sameNumber_zero_add : SameNumber (0 + x) x := (alike_zero_add .positive).pack_left

theorem sameNumber_sub_zero : SameNumber (x - 0) x := (alike_sub_zero .positive).pack_left

theorem sameNumber_zero_sub : SameNumber (0 - x) (-x) := (alike_zero_sub .positive).pack

protected theorem neg_neg : - -x = x := by
  refine pack_eq ?_
  rw [unpack_neg, neg_neg_unpacked]

protected theorem mul_comm (y : Float) : x * y = y * x := by
  change Float.ofModel (.pack (.mul .binary64 x.toModel.unpack y.toModel.unpack)) = _
  rw [mul_comm_unpacked]
  rfl

protected theorem mul_one : x * 1 = x := by
  refine pack_eq ?_
  rw [unpack_one]
  cases shape : x.toModel.unpack with
  | notANumber => rfl
  | infinity s | zero s => cases s <;> rfl
  | finite s m e positive =>
    rw [mul_unpacked_one (target_of_unpack shape)]
    cases s <;> rfl

theorem mul_negativeOne : x * -1 = -x := by
  refine pack_eq ?_
  rw [unpack_negativeOne, unpack_neg]
  cases shape : x.toModel.unpack with
  | notANumber => rfl
  | infinity s | zero s => cases s <;> rfl
  | finite s m e positive =>
    rw [mul_unpacked_one (target_of_unpack shape)]
    cases s <;> rfl

protected theorem div_one : x / 1 = x := by
  refine pack_eq ?_
  rw [unpack_one]
  cases shape : x.toModel.unpack with
  | notANumber => rfl
  | infinity s | zero s => cases s <;> rfl
  | finite s m e positive =>
    rw [div_unpacked_one (target_of_unpack shape)]
    cases s <;> rfl

end

section

variable {x : Float}

theorem sameNumber_sub_self (finite : x.isFinite = true) : SameNumber (x - x) 0 := by
  change x.toModel.unpack.isFinite = true at finite
  refine Alike.pack_left (x := 0) ?_
  cases shape : x.toModel.unpack with
  | notANumber | infinity => rw [shape] at finite; cases finite
  | zero s => cases s <;> exact .zeros _ _
  | finite s m e positive =>
    have difference : UnpackedFloat.sub .binary64 (.finite s m e positive)
        (.finite s m e positive) = .zero .positive := by
      dsimp only [UnpackedFloat.sub]
      rw [Int.sub_self]
      rfl
    rw [difference]
    exact .zeros _ _

theorem sameNumber_mul_zero (finite : x.isFinite = true) : SameNumber (x * 0) 0 := by
  change x.toModel.unpack.isFinite = true at finite
  refine Alike.pack_left (x := 0) ?_
  cases shape : x.toModel.unpack with
  | notANumber | infinity => rw [shape] at finite; cases finite
  | zero | finite => exact .zeros _ _

theorem sameNumber_zero_div (finite : (0 / x).isFinite = true) : SameNumber (0 / x) 0 := by
  have whole := isFinite_of_pack finite
  refine Alike.pack_left (x := 0) ?_
  cases shape : x.toModel.unpack with
  | notANumber | zero => rw [shape] at whole; cases whole
  | infinity | finite => exact .zeros _ _

end

end Formulae.Number
