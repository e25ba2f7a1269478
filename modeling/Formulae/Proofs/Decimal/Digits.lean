import Formulae.Decimal.Notation
import Formulae.Decimal.Numeral
import Formulae.Proofs.Decimal.Shortest

/-!
# Digits and their value

The digits of a number spell this number (`natOfDigits_digits`), and `positional` writes a decimal
as a numeral: a run of digits, and behind a point another run of digits if there is a fraction
(`exists_spelling`).  So the text of a finite float is its sign and a numeral that reads back as its
magnitude (`exists_toList_plain`).
-/

namespace Formulae.Decimal

open Formulae.Number (code infinityCode isFinite_eq isInf_eq isNaN_eq isNegative nearest
  nearestCode ofCode)
open Formulae.Text (isDigit)

/-! ## Runs of digits -/

theorem natOfDigits_foldl (ds : List Char) (n : Nat) :
    ds.foldl (fun n c => 10 * n + digitValue c) n = n * 10 ^ ds.length + natOfDigits ds := by
  unfold natOfDigits
  induction ds generalizing n with
  | nil => simp
  | cons d ds induction =>
    rw [List.foldl_cons, List.foldl_cons, induction, induction (10 * 0 + digitValue d),
      List.length_cons, Nat.pow_succ]
    ring

theorem natOfDigits_append (ds es : List Char) :
    natOfDigits (ds ++ es) = natOfDigits ds * 10 ^ es.length + natOfDigits es := by
  rw [natOfDigits, List.foldl_append, natOfDigits_foldl]
  rfl

theorem natOfDigits_zeros (n : Nat) : natOfDigits (List.replicate n '0') = 0 := by
  induction n with
  | zero => rfl
  | succ n induction =>
    rw [List.replicate_succ', natOfDigits_append, induction]
    rfl

theorem isDigit_digitChar {d : Nat} (small : d < 10) : isDigit (digitChar d) = true := by
  decide +revert

theorem natOfDigits_digitChar {d : Nat} (small : d < 10) : natOfDigits [digitChar d] = d := by
  decide +revert

theorem natOfDigits_digits (n : Nat) : natOfDigits (digits n) = n := by
  induction n using digits.induct with
  | case1 n small => rw [digits, if_pos small, natOfDigits_digitChar small]
  | case2 n large induction =>
    rw [digits, if_neg large, natOfDigits_append, induction,
      natOfDigits_digitChar (Nat.mod_lt n (by decide)), List.length_singleton, Nat.pow_one]
    omega

theorem digits_ne_nil (n : Nat) : digits n ≠ [] := by
  rw [digits]
  split
  next => simp
  next => simp

theorem isDigit_of_mem_digits {n : Nat} {c : Char} (membership : c ∈ digits n) :
    isDigit c = true := by
  induction n using digits.induct with
  | case1 n small =>
    rw [digits, if_pos small, List.mem_singleton] at membership
    rw [membership, isDigit_digitChar small]
  | case2 n large induction =>
    rw [digits, if_neg large, List.mem_append, List.mem_singleton] at membership
    rcases membership with front | rfl
    · exact induction front
    · exact isDigit_digitChar (Nat.mod_lt n (by decide))

/-! ## Numerals -/

/-- A numeral: the digits of a whole part and, if there are any, those of a fraction. -/
def numeral (whole fraction : List Char) : List Char :=
  match fraction with
  | [] => whole
  | c :: cs => whole ++ '.' :: c :: cs

/-- The digits of a numeral and what they spell. -/
structure Spelling (d : Decimal) (whole fraction : List Char) : Prop where
  /-- The whole part is not empty. -/
  nonempty : whole ≠ []
  /-- Digits only. -/
  digits : ∀ c ∈ whole ++ fraction, isDigit c = true
  /-- The number without its point. -/
  value : natOfDigits (whole ++ fraction) = d.significand * 10 ^ d.exponent.toNat
  /-- The place of the point. -/
  places : fraction.length = (-d.exponent).toNat

theorem numeral_of_ne_nil (whole : List Char) {fraction : List Char} (some : fraction ≠ []) :
    numeral whole fraction = whole ++ '.' :: fraction := by
  cases fraction with
  | nil => exact absurd rfl some
  | cons c cs => rfl

theorem mem_numeral {c : Char} {whole fraction : List Char}
    (membership : c ∈ numeral whole fraction) : c ∈ whole ++ fraction ∨ c = '.' := by
  cases fraction with
  | nil => exact .inl (by simpa [numeral] using membership)
  | cons d ds =>
    simp only [numeral, List.mem_append, List.mem_cons] at membership ⊢
    tauto

/-- A decimal is written as a numeral that spells it. -/
theorem exists_spelling (d : Decimal) :
    ∃ whole fraction, d.positional = numeral whole fraction ∧ Spelling d whole fraction := by
  have allDigits : ∀ c ∈ digits d.significand, isDigit c = true :=
    fun c membership => isDigit_of_mem_digits membership
  have zeros : ∀ n, ∀ c ∈ List.replicate n '0', isDigit c = true := by
    intro n c membership
    rw [List.eq_of_mem_replicate membership]
    decide
  have value := natOfDigits_digits d.significand
  have nonempty := digits_ne_nil d.significand
  unfold positional
  dsimp only
  generalize digits d.significand = ds at *
  have positive := List.length_pos_iff.2 nonempty
  split
  next whole =>
    refine ⟨ds ++ List.replicate d.exponent.toNat '0', [], rfl, ?_, ?_, ?_, ?_⟩
    · simp [nonempty]
    · rw [List.append_nil, List.forall_mem_append]
      exact ⟨allDigits, zeros _⟩
    · rw [List.append_nil, natOfDigits_append, natOfDigits_zeros, value, List.length_replicate]
      rfl
    · simp
      omega
  next negative =>
    have scale : d.exponent.toNat = 0 := by omega
    split
    next inside =>
      have fraction : ds.drop (ds.length - (-d.exponent).toNat) ≠ [] := by
        rw [ne_eq, List.drop_eq_nil_iff]
        omega
      refine ⟨_, _, (numeral_of_ne_nil _ fraction).symm, ?_, ?_, ?_, ?_⟩
      · rw [← List.length_pos_iff, List.length_take]
        omega
      · rwa [List.take_append_drop]
      · rw [List.take_append_drop, value, scale, Nat.pow_zero, Nat.mul_one]
      · rw [List.length_drop]
        omega
    next outside =>
      have fraction : List.replicate ((-d.exponent).toNat - ds.length) '0' ++ ds ≠ [] := by
        simp [nonempty]
      refine ⟨['0'], List.replicate ((-d.exponent).toNat - ds.length) '0' ++ ds,
        (numeral_of_ne_nil ['0'] fraction).symm, by simp, ?_, ?_, ?_⟩
      · rw [List.forall_mem_append, List.forall_mem_append]
        exact ⟨zeros 1, zeros _, allDigits⟩
      · rw [natOfDigits_append, natOfDigits_append, natOfDigits_zeros, value, scale]
        simp [natOfDigits, digitValue]
      · rw [List.length_append, List.length_replicate]
        omega

/-- The numeral of the shortest decimal reads back. -/
theorem ofDigits_shortest {c : Nat} {whole fraction : List Char} (positive : 0 < c)
    (finite : c < infinityCode) (spelling : Spelling (shortest c) whole fraction) :
    ofDigits whole fraction = ofCode false c := by
  unfold ofDigits nearest
  rw [spelling.value, spelling.places]
  exact congrArg (ofCode false) (nearestCode_shortest positive finite)

/-! ## The text of a float -/

/-- A finite magnitude is written as a numeral that reads back. -/
theorem exists_numeral_of_code {c : Nat} (finite : c < infinityCode) :
    ∃ whole fraction,
      (if c = 0 then ['0'] else (shortest c).positional) = numeral whole fraction ∧
        whole ≠ [] ∧ (∀ d ∈ whole ++ fraction, isDigit d = true) ∧
          ofDigits whole fraction = ofCode false c := by
  split
  next zero =>
    have value : ofDigits ['0'] [] = ofCode false 0 := by decide +kernel
    rw [zero]
    exact ⟨['0'], [], rfl, by simp, List.all_eq_true.1 (by decide), value⟩
  next nonzero =>
    obtain ⟨whole, fraction, text, spelling⟩ := exists_spelling (shortest c)
    exact ⟨whole, fraction, text, spelling.nonempty, spelling.digits,
      ofDigits_shortest (Nat.pos_of_ne_zero nonzero) finite spelling⟩

/-- A finite float is written as its sign and the numeral of its magnitude. -/
theorem exists_toList_plain {x : Float} (finite : code x < infinityCode) :
    ∃ whole fraction,
      (plain x).toList = (if isNegative x then ['-'] else []) ++ numeral whole fraction ∧
        whole ≠ [] ∧ (∀ d ∈ whole ++ fraction, isDigit d = true) ∧
          ofDigits whole fraction = ofCode false (code x) := by
  obtain ⟨whole, fraction, text, spelling⟩ := exists_numeral_of_code finite
  refine ⟨whole, fraction, ?_, spelling⟩
  rw [← text]
  unfold plain withSign
  rw [isNaN_eq, isInf_eq, decide_eq_false (Nat.lt_asymm finite),
    decide_eq_false (Nat.ne_of_lt finite)]
  cases isNegative x with
  | false => simp
  | true => simp

end Formulae.Decimal
