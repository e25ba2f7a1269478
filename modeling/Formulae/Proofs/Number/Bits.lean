import Formulae.Number.Grid

/-!
# The bits of a float

The operations on floats take a bit pattern apart into a sign, an exponent and a mantissa, and put
the result together again.  `parts` gives the same data for a sign and a magnitude code, so that
statements about bit patterns become statements about codes.

* `unpack_eq` and `toBits_pack_parts` say that the parts of a sign and a code are those of its bit
  pattern, in both directions.
* `code_ofCode`, `isNegative_ofCode` and `ofCode_code` follow: a float is its sign and its code.
* Codes below `infinityCode` are the finite ones, `infinityCode` is infinity, and the codes above
  are undefined (`isFinite_eq`, `isInf_eq`, `isNaN_eq`).
* A negation changes the sign alone (`neg_ofCode`).
-/

namespace Formulae.Number

open Float.Model (UnpackedFloat)
open Float.Model.UnpackedFloat

/-! ## Bit patterns -/

theorem binade_eq : binade = 4503599627370496 := rfl

theorem signBit_eq : signBit = 9223372036854775808 := rfl

theorem infinityCode_eq : infinityCode = 9218868437227405312 := rfl

/-- The number that a bit pattern spells, from the sign and the magnitude code. -/
def word (negative : Bool) (magnitude : Nat) : Nat :=
  if negative then signBit + magnitude else magnitude

theorem word_lt {magnitude : Nat} (negative : Bool) (small : magnitude < signBit) :
    word negative magnitude < 18446744073709551616 := by
  rw [signBit_eq] at small
  cases negative with
  | false => simp [word]; omega
  | true => simp [word, signBit_eq]; omega

/-- The sign of a float. -/
def sign (negative : Bool) : Sign := if negative then .negative else .positive

theorem neg_sign (negative : Bool) : -sign negative = sign (!negative) := by
  cases negative <;> rfl

/-- The sign, the exponent and the mantissa of a float with a given magnitude code. -/
def parts (negative : Bool) (magnitude : Nat) : UnpackedFloat :=
  if infinityCode < magnitude then .notANumber
  else if magnitude = infinityCode then .infinity (sign negative)
  else if zero : magnitude = 0 then .zero (sign negative)
  else if magnitude < binade then
    .finite (sign negative) magnitude (-1074) (Nat.pos_of_ne_zero zero)
  else
    .finite (sign negative) (binade + magnitude % binade) (magnitude / binade - 1075 : Int)
      (Nat.add_pos_left (by decide) _)

theorem parts_undefined {negative : Bool} {c : Nat} (large : infinityCode < c) :
    parts negative c = .notANumber := by
  rw [parts, if_pos large]

theorem parts_infinite (negative : Bool) :
    parts negative infinityCode = .infinity (sign negative) := by
  rw [parts, if_neg (Nat.lt_irrefl _), if_pos rfl]

theorem parts_zero (negative : Bool) : parts negative 0 = .zero (sign negative) := rfl

theorem parts_subnormal {negative : Bool} {c : Nat} (positive : 0 < c) (small : c < binade) :
    parts negative c = .finite (sign negative) c (-1074) positive := by
  have bounded : c < infinityCode := Nat.lt_trans small (by decide)
  rw [parts, if_neg (Nat.lt_asymm bounded), if_neg (Nat.ne_of_lt bounded),
    dif_neg (Nat.ne_of_gt positive), if_pos small]

theorem parts_normal {negative : Bool} {c : Nat} (large : binade ≤ c) (bounded : c < infinityCode) :
    parts negative c =
      .finite (sign negative) (binade + c % binade) (c / binade - 1075 : Int)
        (Nat.add_pos_left (by decide) _) := by
  have positive : 0 < c := Nat.lt_of_lt_of_le (by decide) large
  rw [parts, if_neg (Nat.lt_asymm bounded), if_neg (Nat.ne_of_lt bounded),
    dif_neg (Nat.ne_of_gt positive), if_neg (Nat.not_lt.2 large)]

/-- A finite code is that of zero or has a mantissa and an exponent, whatever the sign. -/
theorem parts_finite {c : Nat} (finite : c < infinityCode) :
    (∀ negative, parts negative c = .zero (sign negative)) ∨
      ∃ m e positive, ∀ negative, parts negative c = .finite (sign negative) m e positive := by
  by_cases zero : c = 0
  · rw [zero]
    exact Or.inl parts_zero
  · by_cases small : c < binade
    · exact Or.inr ⟨_, _, _, fun _ => parts_subnormal (Nat.pos_of_ne_zero zero) small⟩
    · exact Or.inr ⟨_, _, _, fun _ => parts_normal (Nat.not_lt.1 small) finite⟩

theorem neg_parts {negative : Bool} {c : Nat} (defined : c ≤ infinityCode) :
    (parts negative c).neg = parts (!negative) c := by
  rcases Nat.lt_or_eq_of_le defined with finite | rfl
  · rcases parts_finite finite with zero | ⟨m, e, positive, whole⟩
    · rw [zero, zero, ← neg_sign]
      rfl
    · rw [whole, whole, ← neg_sign]
      rfl
  · rw [parts_infinite, parts_infinite, ← neg_sign]
    rfl

/-! ## Taking apart -/

theorem toNat_unpackMantissa (w : BitVec 64) :
    (@unpackMantissa .binary64 w).toNat = w.toNat % signBit % binade := by
  simp [unpackMantissa, signBit_eq, binade_eq]

theorem toNat_unpackExponent (w : BitVec 64) :
    (@unpackExponent .binary64 w).toNat = w.toNat % signBit / binade := by
  simp [unpackExponent, Nat.shiftRight_eq_div_pow, signBit_eq, binade_eq]
  omega

theorem ofBitVec_unpackSign (w : BitVec 64) :
    Sign.ofBitVec (@unpackSign .binary64 w) = sign (decide (signBit ≤ w.toNat)) := by
  have bounded := w.isLt
  have value : (@unpackSign .binary64 w).toNat = w.toNat / signBit := by
    change (BitVec.extractLsb 63 63 w).toNat = _
    simp [Nat.shiftRight_eq_div_pow, signBit_eq]
    omega
  have positive : @unpackSign .binary64 w = 0#1 ↔ ¬ signBit ≤ w.toNat := by
    rw [← BitVec.toNat_inj, value, BitVec.toNat_ofNat, signBit_eq]
    omega
  unfold Sign.ofBitVec sign
  by_cases negative : signBit ≤ w.toNat
  · simp [positive, negative]
  · simp [positive, negative]

theorem toNat_one_append (m : BitVec 52) : (1#1 ++ m).toNat = binade + m.toNat := by
  rw [BitVec.toNat_append, ← Nat.shiftLeft_add_eq_or_of_lt m.isLt]
  rfl

/-- A bit pattern is taken apart into the parts of its sign and its code. -/
theorem unpack_word (w : BitVec 64) :
    UnpackedFloat.unpack .binary64 w =
      parts (decide (signBit ≤ w.toNat)) (w.toNat % signBit) := by
  have exponent := toNat_unpackExponent w
  have mantissa := toNat_unpackMantissa w
  have bounded : w.toNat % signBit < signBit := Nat.mod_lt _ (by decide)
  unfold UnpackedFloat.unpack
  dsimp only
  rw [ofBitVec_unpackSign]
  generalize decide (signBit ≤ w.toNat) = negative
  generalize w.toNat % signBit = c at *
  -- The three tests on the fields are comparisons of the code.
  have ones : @unpackExponent .binary64 w = -1#11 ↔ infinityCode ≤ c := by
    rw [← BitVec.toNat_inj, exponent, infinityCode_eq, binade_eq]
    rw [signBit_eq] at bounded
    simp
    omega
  have noExponent : @unpackExponent .binary64 w = 0#11 ↔ c < binade := by
    rw [← BitVec.toNat_inj, exponent, binade_eq]
    simp
  have noMantissa : @unpackMantissa .binary64 w = 0#52 ↔ c % binade = 0 := by
    rw [← BitVec.toNat_inj, mantissa]
    simp
  by_cases large : infinityCode ≤ c
  · rw [if_pos (ones.2 large)]
    by_cases infinite : c = infinityCode
    · rw [if_pos (noMantissa.2 (by rw [infinite]; rfl)), infinite, parts_infinite]
    · have remains : ¬ c % binade = 0 := by
        rw [infinityCode_eq] at large infinite
        rw [signBit_eq] at bounded
        rw [binade_eq]
        omega
      rw [if_neg (mt noMantissa.1 remains), parts_undefined (by omega)]
  · rw [if_neg (mt ones.1 large)]
    by_cases small : c < binade
    · rw [Nat.mod_eq_of_lt small] at noMantissa mantissa
      rw [if_pos (noExponent.2 small)]
      by_cases zero : c = 0
      · rw [dif_pos (noMantissa.2 zero), zero, parts_zero]
      · rw [dif_neg (mt noMantissa.1 zero), parts_subnormal (by omega) small]
        congr 1
        rw [exponent, Nat.div_eq_of_lt small]
        rfl
    · rw [if_neg (mt noExponent.1 small), parts_normal (by omega) (by omega)]
      congr 1
      · rw [toNat_one_append, mantissa]
      · rw [exponent]
        rfl

/-! ## Putting together -/

theorem toNat_packComponents (s : Sign) (e : BitVec 11) (m : BitVec 52) :
    (packComponents .binary64 s e m).toNat =
      s.toBitVec.toNat * signBit + (e.toNat * binade + m.toNat) := by
  have exponentSmall := e.isLt
  have mantissaSmall := m.isLt
  simp only [packComponents, BitVec.toNat_append]
  rw [← Nat.shiftLeft_add_eq_or_of_lt e.isLt, ← Nat.shiftLeft_add_eq_or_of_lt m.isLt]
  simp only [Nat.shiftLeft_eq, signBit_eq, binade_eq]
  omega

theorem toNat_packComponents_sign (negative : Bool) (e : BitVec 11) (m : BitVec 52) :
    (packComponents .binary64 (sign negative) e m).toNat =
      word negative (e.toNat * binade + m.toNat) := by
  rw [toNat_packComponents]
  cases negative with
  | false => simp [sign, Sign.toBitVec, word]
  | true => simp [sign, Sign.toBitVec, word]

theorem toNat_pack_subnormal {negative : Bool} {c : Nat} (positive : 0 < c) (small : c < binade) :
    (UnpackedFloat.pack .binary64 (.finite (sign negative) c (-1074) positive)).toNat =
      word negative c := by
  have bits : ¬ c.log2 + 1 = Float.Model.Format.binary64.mantissaBits := by
    have fewer : c.log2 < 52 := (Nat.log2_lt (Nat.ne_of_gt positive)).2 small
    rw [show Float.Model.Format.binary64.mantissaBits = 53 from rfl]
    omega
  unfold UnpackedFloat.pack
  rw [if_neg (by decide), if_neg bits, toNat_packComponents_sign, BitVec.toNat_ofNat,
    BitVec.toNat_ofNat, Nat.mod_eq_of_lt (show c < 2 ^ 52 from small)]
  simp

theorem toNat_pack_normal (negative : Bool) {e m : Nat} (positive : 0 < binade + m)
    (least : 0 < e) (greatest : e < 2047) (small : m < binade) :
    (UnpackedFloat.pack .binary64
      (.finite (sign negative) (binade + m) (e - 1075 : Int) positive)).toNat =
      word negative (e * binade + m) := by
  have bits : (binade + m).log2 = 52 := by
    refine (Nat.log2_eq_iff (by omega)).2 ⟨?_, ?_⟩
    · exact Nat.le_add_right binade m
    · exact Nat.add_lt_add_left small binade
  have biased : ((e - 1075 : Int) + (1023 : Nat) + (52 : Nat)).toNat = e := by omega
  unfold UnpackedFloat.pack
  change (if 2 ^ 11 ≤ ((e - 1075 : Int) + (1023 : Nat) + (52 : Nat)).toNat + 1 then _
    else if (binade + m).log2 + 1 = 53 then packComponents .binary64 _
      (BitVec.ofNat 11 ((e - 1075 : Int) + (1023 : Nat) + (52 : Nat)).toNat)
      (BitVec.ofNat 52 (binade + m))
    else _ : BitVec 64).toNat = _
  rw [biased, if_neg (by omega), bits, if_pos rfl, toNat_packComponents_sign, BitVec.toNat_ofNat,
    BitVec.toNat_ofNat, Nat.mod_eq_of_lt (show e < 2 ^ 11 by omega)]
  rw [show (binade + m) % 2 ^ 52 = m from
    (Nat.add_mod_left binade m).trans (Nat.mod_eq_of_lt small)]

/-- The parts of a sign and a code are put together to their bit pattern. -/
theorem toNat_pack_parts {negative : Bool} {c : Nat} (defined : c ≤ infinityCode) :
    (UnpackedFloat.pack .binary64 (parts negative c)).toNat = word negative c := by
  rcases Nat.lt_or_eq_of_le defined with finite | rfl
  · by_cases zero : c = 0
    · rw [zero, parts_zero]
      exact toNat_packComponents_sign negative 0 0
    · by_cases small : c < binade
      · rw [parts_subnormal (by omega) small, toNat_pack_subnormal (by omega) small]
      · rw [parts_normal (by omega) finite]
        rw [infinityCode_eq] at finite
        have least : 0 < c / binade := Nat.div_pos (Nat.not_lt.1 small) (by decide)
        have greatest : c / binade < 2047 := by
          rw [binade_eq]
          omega
        have packed := toNat_pack_normal negative (Nat.add_pos_left (by decide) (c % binade)) least
          greatest (Nat.mod_lt c (by decide))
        rwa [Nat.div_add_mod'] at packed
  · rw [parts_infinite]
    exact toNat_packComponents_sign negative (-1#11) 0

/-! ## Signs and codes -/

theorem unpack_eq (x : Float) : x.toModel.unpack = parts (isNegative x) (code x) :=
  unpack_word x.toBits.toBitVec

/-- A float is spelled by its sign and its code. -/
theorem toNat_toBits (x : Float) : x.toBits.toNat = word (isNegative x) (code x) := by
  have bounded := x.toBits.toNat_lt
  unfold word isNegative code
  rw [signBit_eq]
  simp only [decide_eq_true_eq]
  split
  next => omega
  next => omega

theorem ext_of_toBits {x y : Float} (same : x.toBits.toNat = y.toBits.toNat) : x = y := by
  have sameBits : x.toModel.toBits = y.toModel.toBits := UInt64.toNat_inj.1 same
  obtain ⟨⟨bits, valid⟩⟩ := x
  obtain ⟨⟨bits', valid'⟩⟩ := y
  obtain rfl : bits = bits' := sameBits
  rfl

section

variable {negative : Bool} {c : Nat}

theorem lt_signBit_of_le (defined : c ≤ infinityCode) : c < signBit :=
  Nat.lt_of_le_of_lt defined (by decide)

theorem decide_signBit_le_word (small : c < signBit) :
    decide (signBit ≤ word negative c) = negative := by
  cases negative with
  | false => simp [word, small]
  | true => simp [word]

theorem word_mod_signBit (small : c < signBit) : word negative c % signBit = c := by
  cases negative with
  | false => exact Nat.mod_eq_of_lt small
  | true => exact (Nat.add_mod_left signBit c).trans (Nat.mod_eq_of_lt small)

/-- What is put together from a sign and a code has this sign and this code. -/
theorem of_toBits_eq_word {x : Float} (defined : c ≤ infinityCode)
    (bits : x.toBits.toNat = word negative c) : isNegative x = negative ∧ code x = c := by
  have small := lt_signBit_of_le defined
  constructor
  · rw [isNegative, bits, decide_signBit_le_word small]
  · rw [code, bits, word_mod_signBit small]

theorem toNat_toBits_ofCode (defined : c ≤ infinityCode) :
    (ofCode negative c).toBits.toNat = word negative c := by
  have small := lt_signBit_of_le defined
  have inRange : (UInt64.ofNat (word negative c)).toBitVec.toNat = word negative c := by
    rw [UInt64.toBitVec_ofNat', BitVec.toNat_ofNat]
    exact Nat.mod_eq_of_lt (word_lt negative small)
  have unpacked := unpack_word (UInt64.ofNat (word negative c)).toBitVec
  rw [inRange, decide_signBit_le_word small, word_mod_signBit small] at unpacked
  change (UnpackedFloat.pack .binary64
    (UnpackedFloat.unpack .binary64 (UInt64.ofNat (word negative c)).toBitVec)).toNat = _
  rw [unpacked, toNat_pack_parts defined]

theorem isNegative_ofCode (defined : c ≤ infinityCode) :
    isNegative (ofCode negative c) = negative :=
  (of_toBits_eq_word defined (toNat_toBits_ofCode defined)).1

theorem code_ofCode (defined : c ≤ infinityCode) : code (ofCode negative c) = c :=
  (of_toBits_eq_word defined (toNat_toBits_ofCode defined)).2

/-- A negation changes the sign and keeps the code. -/
theorem neg_ofCode (defined : c ≤ infinityCode) : -ofCode negative c = ofCode (!negative) c := by
  apply ext_of_toBits
  rw [toNat_toBits_ofCode defined]
  change (UnpackedFloat.pack .binary64 (ofCode negative c).toModel.unpack.neg).toNat = _
  rw [unpack_eq, isNegative_ofCode defined, code_ofCode defined, neg_parts defined,
    toNat_pack_parts defined]

end

/-- A defined float is made of its sign and its code. -/
theorem ofCode_code {x : Float} (defined : code x ≤ infinityCode) :
    ofCode (isNegative x) (code x) = x := by
  apply ext_of_toBits
  rw [toNat_toBits_ofCode defined, toNat_toBits]

/-! ## Classes -/

section

variable (x : Float)

/-- What holds of each kind of unpacked float, with its code, holds of every float. -/
theorem unpack_induction {motive : UnpackedFloat → Nat → Prop}
    (zero : ∀ s c, c < infinityCode → motive (.zero s) c)
    (finite : ∀ s m e positive c, c < infinityCode → motive (.finite s m e positive) c)
    (infinite : ∀ s, motive (.infinity s) infinityCode)
    (undefined : ∀ c, infinityCode < c → motive .notANumber c) :
    motive x.toModel.unpack (code x) := by
  rw [unpack_eq]
  rcases Nat.lt_trichotomy (code x) infinityCode with small | equal | large
  · rcases parts_finite small with whole | ⟨m, e, positive, whole⟩
    · rw [whole]
      exact zero _ _ small
    · rw [whole]
      exact finite _ _ _ _ _ small
  · rw [equal, parts_infinite]
    exact infinite _
  · rw [parts_undefined large]
    exact undefined _ large

theorem isNaN_eq : x.isNaN = decide (infinityCode < code x) := by
  refine unpack_induction (motive := fun u c => u.isNaN = decide (infinityCode < c)) x ?_ ?_ ?_ ?_
  · exact fun _ _ small => (decide_eq_false (Nat.lt_asymm small)).symm
  · exact fun _ _ _ _ _ small => (decide_eq_false (Nat.lt_asymm small)).symm
  · exact fun _ => (decide_eq_false (Nat.lt_irrefl _)).symm
  · exact fun _ large => (decide_eq_true large).symm

theorem isInf_eq : x.isInf = decide (code x = infinityCode) := by
  refine unpack_induction (motive := fun u c => u.isInf = decide (c = infinityCode)) x ?_ ?_ ?_ ?_
  · exact fun _ _ small => (decide_eq_false (Nat.ne_of_lt small)).symm
  · exact fun _ _ _ _ _ small => (decide_eq_false (Nat.ne_of_lt small)).symm
  · exact fun _ => (decide_eq_true rfl).symm
  · exact fun _ large => (decide_eq_false (Nat.ne_of_gt large)).symm

theorem isFinite_eq : x.isFinite = decide (code x < infinityCode) := by
  refine unpack_induction (motive := fun u c => u.isFinite = decide (c < infinityCode)) x ?_ ?_ ?_ ?_
  · exact fun _ _ small => (decide_eq_true small).symm
  · exact fun _ _ _ _ _ small => (decide_eq_true small).symm
  · exact fun _ => (decide_eq_false (Nat.lt_irrefl _)).symm
  · exact fun _ large => (decide_eq_false (Nat.lt_asymm large)).symm

variable {x}

theorem isFinite_iff : x.isFinite = true ↔ code x < infinityCode := by
  rw [isFinite_eq, decide_eq_true_iff]

end

end Formulae.Number
