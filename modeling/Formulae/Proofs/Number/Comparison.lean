import Formulae.Number.Order
import Formulae.Proofs.Number.Nearest

/-!
# Comparisons are those of exact values

Finite floats are compared as the numbers that they stand for.  Comparing takes the exponents before
the mantissas, which is right because a mantissa with a greater exponent is a large one
(`compare_fit`).

* `lt_iff`, `le_iff` and `beq_iff` are the comparisons of the language.
* `nonneg_iff`, `nonpos_iff` and their like compare with zero.
* `toReal_le_of_rank` is the total order that places `-0` before `0`, and `leastAndGreatest_spec` what
  the ends of a list in this order are.
* `toReal_abs` is the absolute value, and `abs_le_iff` compares it.
-/

namespace Formulae.Number

open Float.Model (UnpackedFloat)
open Float.Model.UnpackedFloat

/-! ## Comparing the parts -/

/-- Exponents first and mantissas second is the order of the magnitudes. -/
theorem compare_fit {m m' k k' : ℕ} (fit : (k = 0 ∨ binade ≤ m) ∧ m < 2 * binade)
    (fit' : (k' = 0 ∨ binade ≤ m') ∧ m' < 2 * binade) :
    (compare (k - 1074 : ℤ) (k' - 1074 : ℤ)).then (compare m m') =
      compare (m * 2 ^ k) (m' * 2 ^ k') := by
  have smaller : ∀ {n n' j j' : ℕ}, n < 2 * binade → (j' = 0 ∨ binade ≤ n') → j < j' →
      n * 2 ^ j < n' * 2 ^ j' := by
    intro n n' j j' small large before
    calc n * 2 ^ j < 2 * binade * 2 ^ j := Nat.mul_lt_mul_of_pos_right small (Nat.two_pow_pos j)
      _ = binade * 2 ^ (j + 1) := by rw [Nat.pow_succ]; ring
      _ ≤ n' * 2 ^ j' :=
        Nat.mul_le_mul (large.resolve_left (by omega)) (Nat.pow_le_pow_right Nat.two_pos before)
  rcases lt_trichotomy k k' with before | rfl | after
  · rw [Int.compare_eq_lt.2 (by omega), Nat.compare_eq_lt.2 (smaller fit.2 fit'.1 before)]
    rfl
  · rw [Int.compare_eq_eq.2 rfl]
    change compare m m' = _
    rcases lt_trichotomy m m' with less | rfl | more
    · rw [Nat.compare_eq_lt.2 less,
        Nat.compare_eq_lt.2 (Nat.mul_lt_mul_of_pos_right less (Nat.two_pow_pos k))]
    · rw [Nat.compare_eq_eq.2 rfl, Nat.compare_eq_eq.2 rfl]
    · rw [Nat.compare_eq_gt.2 more,
        Nat.compare_eq_gt.2 (Nat.mul_lt_mul_of_pos_right more (Nat.two_pow_pos k))]
  · rw [Int.compare_eq_gt.2 (by omega), Nat.compare_eq_gt.2 (smaller fit'.2 fit.1 after)]
    rfl

theorem compare_cast (n n' : ℕ) : compare (n : ℤ) (n' : ℤ) = compare n n' := by
  rcases lt_trichotomy n n' with less | rfl | more
  · rw [Nat.compare_eq_lt.2 less, Int.compare_eq_lt.2 (by omega)]
  · rw [Nat.compare_eq_eq.2 rfl, Int.compare_eq_eq.2 rfl]
  · rw [Nat.compare_eq_gt.2 more, Int.compare_eq_gt.2 (by omega)]

theorem compare_neg_cast (n n' : ℕ) : compare (-n : ℤ) (-n' : ℤ) = (compare n n').swap := by
  rw [Nat.compare_swap, ← compare_cast]
  rcases lt_trichotomy n n' with less | rfl | more
  · rw [Int.compare_eq_gt.2 (by omega), Int.compare_eq_gt.2 (by omega)]
  · rw [Int.compare_eq_eq.2 rfl, Int.compare_eq_eq.2 rfl]
  · rw [Int.compare_eq_lt.2 (by omega), Int.compare_eq_lt.2 (by omega)]

/-- Finite codes with their signs are compared as numbers of steps. -/
theorem compare_parts {c c' : ℕ} (negative negative' : Bool) (finite : c < infinityCode)
    (finite' : c' < infinityCode) :
    (parts negative c).compare (parts negative' c') =
      some (compare (signed negative (steps c)) (signed negative' (steps c'))) := by
  have positive_steps : ∀ {d : ℕ}, d ≠ 0 → 0 < steps d := fun nonzero =>
    steps_strictMono (Nat.pos_of_ne_zero nonzero)
  by_cases zero : c = 0
  · rw [zero, signed_zero, parts_zero]
    by_cases zero' : c' = 0
    · rw [zero', signed_zero, parts_zero]
      rfl
    · obtain ⟨m', k', positive', -, -, whole'⟩ := exists_parts zero' finite'
      have some := positive_steps zero'
      rw [whole']
      cases negative' with
      | false => rw [signed, if_neg Bool.false_ne_true, Int.compare_eq_lt.2 (by omega)]; rfl
      | true => rw [signed, if_pos rfl, Int.compare_eq_gt.2 (by omega)]; rfl
  · obtain ⟨m, k, positive, fit, magnitude, whole⟩ := exists_parts zero finite
    have some := positive_steps zero
    rw [whole]
    by_cases zero' : c' = 0
    · rw [zero', signed_zero, parts_zero]
      cases negative with
      | false => rw [signed, if_neg Bool.false_ne_true, Int.compare_eq_gt.2 (by omega)]; rfl
      | true => rw [signed, if_pos rfl, Int.compare_eq_lt.2 (by omega)]; rfl
    · obtain ⟨m', k', positive', fit', magnitude', whole'⟩ := exists_parts zero' finite'
      have some' := positive_steps zero'
      have same := compare_fit fit fit'
      rw [magnitude, magnitude'] at same
      rw [whole']
      cases negative with
      | false =>
        cases negative' with
        | false =>
          rw [signed, signed, if_neg Bool.false_ne_true, if_neg Bool.false_ne_true, compare_cast]
          exact congrArg _ same
        | true =>
          rw [signed, signed, if_neg Bool.false_ne_true, if_pos rfl, Int.compare_eq_gt.2 (by omega)]
          rfl
      | true =>
        cases negative' with
        | false =>
          rw [signed, signed, if_pos rfl, if_neg Bool.false_ne_true, Int.compare_eq_lt.2 (by omega)]
          rfl
        | true =>
          rw [signed, signed, if_pos rfl, if_pos rfl, compare_neg_cast]
          exact congrArg (fun o => Option.some (Ordering.swap o)) same

/-! ## Comparing floats -/

section

variable {x y : Float}

theorem compare_of_finite (finite : code x < infinityCode) (finite' : code y < infinityCode) :
    x.toModel.unpack.compare y.toModel.unpack =
      some (compare (signedSteps x) (signedSteps y)) := by
  rw [unpack_eq, unpack_eq, compare_parts _ _ finite finite', signedSteps_eq, signedSteps_eq]

theorem signedSteps_lt_iff (finite : code x < infinityCode) (finite' : code y < infinityCode) :
    signedSteps x < signedSteps y ↔ toReal x < toReal y := by
  rw [toReal_of_finite finite, toReal_of_finite finite', div_lt_div_iff_of_pos_right stepsPerUnit_pos,
    Int.cast_lt]

theorem signedSteps_eq_iff (finite : code x < infinityCode) (finite' : code y < infinityCode) :
    signedSteps x = signedSteps y ↔ toReal x = toReal y := by
  rw [toReal_of_finite finite, toReal_of_finite finite', div_left_inj' stepsPerUnit_ne_zero,
    Int.cast_inj]

theorem lt_iff (finite : code x < infinityCode) (finite' : code y < infinityCode) :
    x < y ↔ toReal x < toReal y := by
  change decide (x.toModel < y.toModel) = true ↔ _
  rw [decide_eq_true_iff]
  change (x.toModel.unpack.compare y.toModel.unpack == some .lt) = true ↔ _
  rw [compare_of_finite finite finite', ← signedSteps_lt_iff finite finite', ← Int.compare_eq_lt]
  generalize compare (signedSteps x) (signedSteps y) = o
  cases o <;> decide

theorem le_iff (finite : code x < infinityCode) (finite' : code y < infinityCode) :
    x ≤ y ↔ toReal x ≤ toReal y := by
  change decide (x.toModel ≤ y.toModel) = true ↔ _
  rw [decide_eq_true_iff]
  change ((x.toModel.unpack.compare y.toModel.unpack).any (·.isLE)) = true ↔ _
  rw [compare_of_finite finite finite', ← not_lt, ← signedSteps_lt_iff finite' finite, not_lt,
    ← Int.isLE_compare]
  rfl

theorem beq_iff (finite : code x < infinityCode) (finite' : code y < infinityCode) :
    (x == y) = true ↔ toReal x = toReal y := by
  change (x.toModel.unpack.compare y.toModel.unpack == some .eq) = true ↔ _
  rw [compare_of_finite finite finite', ← signedSteps_eq_iff finite finite', ← Int.compare_eq_eq]
  generalize compare (signedSteps x) (signedSteps y) = o
  cases o <;> decide

/-! ## Comparisons with zero -/

theorem finite_digits :
    code 0 < infinityCode ∧ code 1 < infinityCode ∧ code 2 < infinityCode := by
  decide

theorem finite_zero : code 0 < infinityCode := finite_digits.1

theorem finite_one : code 1 < infinityCode := finite_digits.2.1

theorem finite_two : code 2 < infinityCode := finite_digits.2.2

theorem nonneg_iff (finite : code x < infinityCode) : 0 ≤ x ↔ 0 ≤ toReal x := by
  rw [le_iff finite_zero finite, toReal_zero]

theorem nonpos_iff (finite : code x < infinityCode) : x ≤ 0 ↔ toReal x ≤ 0 := by
  rw [le_iff finite finite_zero, toReal_zero]

theorem positive_iff (finite : code x < infinityCode) : 0 < x ↔ 0 < toReal x := by
  rw [lt_iff finite_zero finite, toReal_zero]

theorem negative_iff (finite : code x < infinityCode) : x < 0 ↔ toReal x < 0 := by
  rw [lt_iff finite finite_zero, toReal_zero]

theorem beq_zero_iff (finite : code x < infinityCode) : (x == 0) = true ↔ toReal x = 0 := by
  rw [beq_iff finite finite_zero, toReal_zero]

/-! ## The total order -/

/-- The total order keeps the order of the numbers. -/
theorem toReal_le_of_rank (finite : code x < infinityCode) (finite' : code y < infinityCode)
    (before : rank x ≤ rank y) : toReal x ≤ toReal y := by
  have monotone : ∀ {c d : ℕ}, c ≤ d → steps c ≤ steps d := fun le => steps_strictMono.monotone le
  rw [toReal_of_finite finite, toReal_of_finite finite', div_le_div_iff_of_pos_right stepsPerUnit_pos,
    Int.cast_le, signedSteps, signedSteps]
  unfold rank at before
  split_ifs at before ⊢ with negative negative'
  · exact Int.neg_le_neg (Int.ofNat_le.2 (monotone (by omega)))
  · omega
  · omega
  · exact Int.ofNat_le.2 (monotone (by omega))

/-- A fold that keeps the better of two elements ends with an element that no other one betters. -/
theorem foldl_pick {α β : Type*} [Preorder β] {pick : α → α → α} (key : α → β)
    (either : ∀ a b, pick a b = a ∨ pick a b = b)
    (better : ∀ a b, key (pick a b) ≤ key a ∧ key (pick a b) ≤ key b) (as : List α) (a : α) :
    as.foldl pick a ∈ a :: as ∧ ∀ b ∈ a :: as, key (as.foldl pick a) ≤ key b := by
  induction as generalizing a with
  | nil => simp
  | cons c cs induction =>
    have kept : pick a c ∈ [a, c] := by
      rcases either a c with same | same <;> rw [same] <;> simp
    obtain ⟨member, least⟩ := induction (pick a c)
    have bound := least _ List.mem_cons_self
    obtain ⟨notAbove, notAbove'⟩ := better a c
    rw [List.foldl_cons]
    constructor
    · rcases List.mem_cons.1 member with same | rest
      · rw [same]
        exact List.mem_append_left cs kept
      · exact List.mem_cons_of_mem _ (List.mem_cons_of_mem _ rest)
    · intro b among
      rcases List.mem_cons.1 among with rfl | among
      · exact bound.trans notAbove
      · rcases List.mem_cons.1 among with rfl | among
        · exact bound.trans notAbove'
        · exact least b (List.mem_cons_of_mem _ among)

theorem lesser_spec (x y : Float) :
    (lesser x y = x ∨ lesser x y = y) ∧
      rank (lesser x y) ≤ rank x ∧ rank (lesser x y) ≤ rank y := by
  unfold lesser atMost
  simp only [decide_eq_true_eq]
  split_ifs with le
  · exact ⟨Or.inl rfl, le_rfl, le⟩
  · exact ⟨Or.inr rfl, (not_le.1 le).le, le_rfl⟩

theorem greater_spec (x y : Float) :
    (greater x y = x ∨ greater x y = y) ∧
      rank x ≤ rank (greater x y) ∧ rank y ≤ rank (greater x y) := by
  unfold greater atMost
  simp only [decide_eq_true_eq]
  split_ifs with le
  · exact ⟨Or.inr rfl, le, le_rfl⟩
  · exact ⟨Or.inl rfl, le_rfl, (not_le.1 le).le⟩

/-- The ends of a list are elements, and all elements lie between them. -/
theorem leastAndGreatest_spec {xs : List Float} {least greatest : Float}
    (ends : leastAndGreatest xs = some (least, greatest)) :
    least ∈ xs ∧ greatest ∈ xs ∧ ∀ y ∈ xs, rank least ≤ rank y ∧ rank y ≤ rank greatest := by
  cases xs with
  | nil => cases ends
  | cons x xs =>
    injection ends with both
    obtain ⟨rfl, rfl⟩ := Prod.mk.inj both
    obtain ⟨member, least⟩ := foldl_pick rank (fun a b => (lesser_spec a b).1)
      (fun a b => (lesser_spec a b).2) xs x
    obtain ⟨member', greatest⟩ := foldl_pick (fun y => -rank y)
      (fun a b => (greater_spec a b).1)
      (fun a b => (greater_spec a b).2.imp Int.neg_le_neg Int.neg_le_neg) xs x
    exact ⟨member, member', fun y among =>
      ⟨least y among, Int.neg_le_neg_iff.1 (greatest y among)⟩⟩

/-! ## Absolute values -/

theorem abs_parts {negative : Bool} {c : ℕ} (defined : c ≤ infinityCode) :
    (parts negative c).abs = parts false c := by
  rcases Nat.lt_or_eq_of_le defined with finite | rfl
  · rcases parts_finite finite with zero | ⟨m, e, positive, whole⟩
    · rw [zero, zero]
      rfl
    · rw [whole, whole]
      rfl
  · rw [parts_infinite, parts_infinite]
    rfl

theorem toReal_abs (finite : code x < infinityCode) :
    code x.abs < infinityCode ∧ toReal x.abs = |toReal x| := by
  have packed : x.abs.toBits.toNat = word false (code x) := by
    change (UnpackedFloat.pack .binary64 x.toModel.unpack.abs).toNat = _
    rw [unpack_eq, abs_parts finite.le, toNat_pack_parts finite.le]
  obtain ⟨sameSign, sameCode⟩ := of_toBits_eq_word finite.le packed
  rw [abs_toReal finite, toReal_eq_steps (by rwa [sameCode]) sameSign, sameCode]
  exact ⟨finite, rfl⟩

theorem abs_le_iff (finite : code x < infinityCode) (finite' : code y < infinityCode) :
    x.abs ≤ y ↔ |toReal x| ≤ toReal y := by
  obtain ⟨finite'', magnitude⟩ := toReal_abs finite
  rw [le_iff finite'' finite', magnitude]

end

end Formulae.Number
