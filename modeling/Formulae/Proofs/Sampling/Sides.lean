import Formulae.Proofs.Sampling.Window

/-!
# Windows of any values

A window can be asked for any list of values, not only for the important ones of an expression.  It
then need not show them.  `windowShows_iff_areShowable` says when it does: the finite values have to
lie on both sides of zero, or at zero, or be one and the same positive number.  Otherwise an end is widened
towards the values.  Of values above zero the least one lies below `1.3` of itself, of values below
zero the greatest one lies above `1.3` of itself, and a single value below zero lies below its
quotient by `1.3`, so that the two ends are even exchanged (`not_windowShows_negativeTwo`).

That widening moves an end at all is a matter of rounding.  Between a number and five quarters of it
there is always a float (`exists_isFloat_above`), and so no rounding undoes a factor of `1.3`.
-/

namespace Formulae

open Number

/-! ## Widening is not undone by rounding -/

/-- A positive number is between four and eight units of its second binary place. -/
theorem exists_units {v : ℝ} (positive : 0 < v) :
    ∃ (n : ℕ) (e : ℤ), 4 ≤ n ∧ n < 8 ∧ n * 2 ^ e ≤ v ∧ v < (n + 1) * 2 ^ e := by
  obtain ⟨k, below, above⟩ := exists_mem_Ico_zpow positive one_lt_two
  have unit : (0 : ℝ) < 2 ^ (k - 2) := by positivity
  have four : (2 : ℝ) ^ k = 4 * 2 ^ (k - 2) := by
    rw [zpow_sub₀ two_ne_zero, zpow_ofNat]
    ring
  have eight : (2 : ℝ) ^ (k + 1) = 8 * 2 ^ (k - 2) := by
    rw [zpow_add_one₀ two_ne_zero, four]
    ring
  rw [four, ← le_div_iff₀ unit] at below
  rw [eight, ← div_lt_iff₀ unit] at above
  have nonneg : 0 ≤ v / 2 ^ (k - 2) := by positivity
  refine ⟨⌊v / 2 ^ (k - 2)⌋₊, k - 2, Nat.le_floor (by exact_mod_cast below),
    (Nat.floor_lt nonneg).2 (by exact_mod_cast above), ?_, ?_⟩
  · exact (le_div_iff₀ unit).1 (Nat.floor_le nonneg)
  · exact (div_lt_iff₀ unit).1 (Nat.lt_floor_add_one _)

/-- Above a number there is a float that is greater by at most a quarter. -/
theorem exists_isFloat_above {v : ℝ} (least : 1 / 2 ^ 998 ≤ v) (greatest : v ≤ 2 ^ 998) :
    ∃ w, IsFloat w ∧ v < w ∧ w ≤ 5 / 4 * v := by
  obtain ⟨n, e, four, eight, floor, ceiling⟩ := exists_units (lt_of_lt_of_le (by positivity) least)
  have unit : (0 : ℝ) < 2 ^ e := by positivity
  have several : (4 : ℝ) ≤ n := by exact_mod_cast four
  have few : (n + 1 : ℝ) ≤ 2 ^ (3 : ℤ) := by
    norm_num
    exact_mod_cast eight
  have raised : (n + 1 : ℝ) * 2 ^ e ≤ 2 ^ (3 + e) := by
    rw [zpow_add₀ two_ne_zero]
    exact mul_le_mul_of_nonneg_right few unit.le
  have low : -998 < 3 + e := by
    have small := (least.trans_lt ceiling).trans_le raised
    rw [one_div, ← zpow_natCast, ← zpow_neg] at small
    exact_mod_cast (zpow_lt_zpow_iff_right₀ (one_lt_two (α := ℝ))).1 small
  have high : e ≤ 998 := by
    have large := (le_mul_of_one_le_left unit.le (by linarith)).trans (floor.trans greatest)
    rw [← zpow_natCast] at large
    exact_mod_cast (zpow_le_zpow_iff_right₀ (one_lt_two (α := ℝ))).1 large
  refine ⟨(n + 1 : ℕ) * 2 ^ e, isFloat_mul_two_zpow (by omega) (by omega) ?_, ?_, ?_⟩
  · rw [Nat.cast_add_one]
    exact raised.trans (zpow_le_zpow_right₀ one_le_two (by omega))
  · rw [Nat.cast_add_one]
    exact ceiling
  · have quarter : (2 : ℝ) ^ e ≤ 1 / 4 * (n * 2 ^ e) := by
      rw [← mul_assoc]
      exact le_mul_of_one_le_left unit.le (by linarith)
    rw [Nat.cast_add_one]
    linarith

theorem five_quarters_lt_widening : 5 / 4 < toReal 1.3 := by
  have steps : (5 * stepsPerUnit : ℕ) < signedSteps 1.3 * 4 := by decide
  rw [toReal_of_finite finite_widening, lt_div_iff₀ stepsPerUnit_pos, div_mul_eq_mul_div,
    div_lt_iff₀ (by norm_num)]
  exact_mod_cast steps

section

variable {x : Float}

theorem abs_lt_abs_mul_widening (finite : code x < infinityCode) (least : 1 / 2 ^ 997 ≤ |toReal x|)
    (greatest : |toReal x| ≤ 2 ^ 998) : |toReal x| < |toReal (x * 1.3)| := by
  have halved : (1 : ℝ) / 2 ^ 998 ≤ 1 / 2 ^ 997 :=
    one_div_le_one_div_of_le (by positivity) (pow_le_pow_right₀ one_le_two (by norm_num))
  obtain ⟨w, isFloat, more, few⟩ := exists_isFloat_above (halved.trans least) greatest
  refine more.trans_le ((isNearest_mul finite finite_widening).le_abs_toReal
    (widen_spec finite greatest).1 isFloat (few.trans ?_))
  rw [abs_mul, mul_comm |toReal x|]
  exact mul_le_mul_of_nonneg_right (five_quarters_lt_widening.le.trans (le_abs_self _))
    (abs_nonneg _)

theorem abs_div_widening_lt_abs (finite : code x < infinityCode) (least : 1 / 2 ^ 997 ≤ |toReal x|)
    (greatest : |toReal x| ≤ 2 ^ 998) : |toReal (x / 1.3)| < |toReal x| := by
  obtain ⟨atLeast, atMost⟩ := toReal_widening
  have positive : 0 < toReal 1.3 := one_pos.trans_le atLeast
  have quotient : |toReal x / toReal 1.3| = |toReal x| / toReal 1.3 := by
    rw [abs_div, abs_of_pos positive]
  have least' : 1 / 2 ^ 998 ≤ |toReal x| / toReal 1.3 := by
    rw [le_div_iff₀ positive]
    refine le_trans ?_ least
    calc (1 : ℝ) / 2 ^ 998 * toReal 1.3 ≤ 1 / 2 ^ 998 * 2 :=
          mul_le_mul_of_nonneg_left atMost (by positivity)
      _ = 1 / 2 ^ 997 := by rw [pow_succ, ← one_div_mul_one_div, mul_assoc]; norm_num
  have greatest' : |toReal x| / toReal 1.3 ≤ 2 ^ 998 :=
    (div_le_self (abs_nonneg _) atLeast).trans greatest
  obtain ⟨w, isFloat, more, few⟩ := exists_isFloat_above least' greatest'
  have bounded := ((isNearest_div finite finite_widening positive.ne').abs_toReal_le isFloat
    (quotient.trans_le more.le)).2
  refine bounded.trans_lt (few.trans_lt ?_)
  have large : 0 < |toReal x| := lt_of_lt_of_le (by positivity) least
  rw [mul_div_assoc', div_lt_iff₀ positive, mul_comm]
  exact mul_lt_mul_of_pos_left five_quarters_lt_widening large

/-- A float that an end of a window can be made from. -/
structure IsEnd (x : Float) : Prop where
  /-- It is finite. -/
  finite : code x < infinityCode
  /-- It is not too great. -/
  bounded : |toReal x| ≤ 2 ^ 998
  /-- It is zero or not too close to zero. -/
  apart : toReal x ≠ 0 → 1 / 2 ^ 997 ≤ |toReal x|

theorem IsEnd.of_positive (isEnd : IsEnd x) (positive : 0 < toReal x) :
    toReal (x / 1.3) < toReal x ∧ toReal x < toReal (x * 1.3) := by
  have large := isEnd.apart positive.ne'
  have narrowed := abs_div_widening_lt_abs isEnd.finite large isEnd.bounded
  have widened := abs_lt_abs_mul_widening isEnd.finite large isEnd.bounded
  have outward := (widen_spec isEnd.finite isEnd.bounded).2.1 positive.le
  rw [abs_of_pos positive] at narrowed widened
  rw [abs_of_pos (positive.trans_le outward)] at widened
  exact ⟨(le_abs_self _).trans_lt narrowed, widened⟩

theorem IsEnd.of_negative (isEnd : IsEnd x) (negative : toReal x < 0) :
    toReal (x * 1.3) < toReal x ∧ toReal x < toReal (x / 1.3) := by
  have large := isEnd.apart negative.ne
  have narrowed := abs_div_widening_lt_abs isEnd.finite large isEnd.bounded
  have widened := abs_lt_abs_mul_widening isEnd.finite large isEnd.bounded
  have outward := (widen_spec isEnd.finite isEnd.bounded).2.2 negative.le
  rw [abs_of_neg negative] at narrowed widened
  rw [abs_of_neg (outward.trans_lt negative)] at widened
  exact ⟨neg_lt_neg_iff.1 widened, neg_lt_neg_iff.1 ((neg_le_abs _).trans_lt narrowed)⟩

end

theorem IsEnd.finite_div {x : Float} (isEnd : IsEnd x) : code (x / 1.3) < infinityCode := by
  have atLeast := toReal_widening.1
  have positive : 0 < toReal 1.3 := one_pos.trans_le atLeast
  refine ((isNearest_div isEnd.finite finite_widening positive.ne').abs_toReal_le
    (isFloat_two_pow (k := 998) (by norm_num)) ?_).1
  rw [abs_div, abs_of_pos positive]
  exact (div_le_self (abs_nonneg _) atLeast).trans isEnd.bounded

/-! ## The ends of a list -/

theorem toReal_least : 1 / 2 ^ 997 ≤ toReal 1e-300 := by
  have steps : stepsPerUnit ≤ signedSteps 1e-300 * (1 <<< 997 : ℕ) := by decide +kernel
  rw [toReal_of_finite (by decide +kernel), le_div_iff₀ stepsPerUnit_pos, one_div,
    inv_mul_le_iff₀ (by positivity), mul_comm, ← zpow_natCast, ← cast_one_shiftLeft]
  exact_mod_cast steps

/-- The finite values are zero or between `1e-300` and `1e300` in magnitude. -/
def AreModerate (values : List Float) : Prop :=
  ∀ v ∈ values, v.isFinite = true → v == 0 ∨ 1e-300 ≤ v.abs ∧ v.abs ≤ 1e300

instance (values : List Float) : Decidable (AreModerate values) :=
  inferInstanceAs (Decidable (∀ v ∈ values, v.isFinite = true →
    v == 0 ∨ 1e-300 ≤ v.abs ∧ v.abs ≤ 1e300))

theorem AreModerate.isEnd {values : List Float} {v : Float} (moderate : AreModerate values)
    (among : v ∈ values) (finite : v.isFinite = true) : IsEnd v := by
  have size := moderate v among finite
  rw [isFinite_iff] at finite
  obtain ⟨finite', magnitude⟩ := toReal_abs finite
  rcases size with zero | ⟨least, greatest⟩
  · rw [beq_zero_iff finite] at zero
    refine ⟨finite, ?_, fun nonzero => absurd zero nonzero⟩
    rw [zero, abs_zero]
    positivity
  · rw [le_iff (by decide +kernel) finite', magnitude] at least
    rw [le_iff finite' (by decide +kernel), magnitude] at greatest
    refine ⟨finite, greatest.trans (toReal_limit.trans ?_), fun _ => toReal_least.trans least⟩
    exact pow_le_pow_right₀ one_le_two (by norm_num)

/-- Without zeros the ends are widened by a factor, and a single number is narrowed below. -/
theorem widened_of_nonzero {least greatest : Float} (finite : code least < infinityCode)
    (finite' : code greatest < infinityCode) (nonzero : toReal least ≠ 0)
    (nonzero' : toReal greatest ≠ 0) :
    widened least greatest =
      if toReal least = toReal greatest then (least / 1.3, least * 1.3)
      else (least * 1.3, greatest * 1.3) := by
  have noZero : (least == 0) = false := by
    rw [Bool.eq_false_iff, ne_eq, beq_zero_iff finite]
    exact nonzero
  have noZero' : (greatest == 0) = false := by
    rw [Bool.eq_false_iff, ne_eq, beq_zero_iff finite']
    exact nonzero'
  simp [widened, noZero, noZero', beq_iff finite finite']

theorem eq_of_toReal_eq {x y : Float} (finite : code x < infinityCode)
    (finite' : code y < infinityCode) (nonzero : toReal y ≠ 0) (same : toReal x = toReal y) :
    x = y := by
  refine (sameNumber_of_beq ((beq_iff finite finite').2 same)).eq fun s zero => ?_
  rcases unpack_of_finite finite' with ⟨-, none⟩ | ⟨m, e, positive, -, -, whole, -⟩
  · exact nonzero none
  · rw [whole] at zero
    cases zero

/-! ## The result -/

/-- The window goes upwards and shows every finite value. -/
def WindowShows (values : List Float) : Prop :=
  (window values).1 < (window values).2 ∧
    ∀ v ∈ values, v.isFinite = true → (window values).1 ≤ v ∧ v ≤ (window values).2

instance (values : List Float) : Decidable (WindowShows values) :=
  inferInstanceAs (Decidable (_ < _ ∧ ∀ v ∈ values, v.isFinite = true → _ ≤ v ∧ v ≤ _))

/-- The finite values lie on both sides of zero or at it, or are one positive number. -/
def AreShowable (values : List Float) : Prop :=
  ((∃ v ∈ values, v.isFinite = true ∧ v ≤ 0) ∧ ∃ v ∈ values, v.isFinite = true ∧ 0 ≤ v) ∨
    ∃ c, 0 < c ∧ ∀ v ∈ values, v.isFinite = true → v = c

section

variable {values : List Float}

/-- What the ends of the finite values are. -/
structure EndAt (values : List Float) (least greatest : Float) : Prop where
  /-- The window is made from them. -/
  opened : window values = widened least greatest
  /-- The lower one is a finite value. -/
  mem : least ∈ values ∧ least.isFinite = true
  /-- The upper one is a finite value. -/
  mem' : greatest ∈ values ∧ greatest.isFinite = true
  /-- The values are between them. -/
  between : ∀ v ∈ values, v.isFinite = true → toReal least ≤ toReal v ∧ toReal v ≤ toReal greatest

theorem exists_ends (values : List Float) :
    ((∀ v ∈ values, v.isFinite = false) ∧ window values = (-10, 10)) ∨
      ∃ least greatest, EndAt values least greatest := by
  cases ends : leastAndGreatest (values.filter Float.isFinite) with
  | none =>
    refine .inl ⟨?_, by rw [window, ends]⟩
    cases finite : values.filter Float.isFinite with
    | nil => simpa [List.filter_eq_nil_iff] using finite
    | cons =>
      rw [finite] at ends
      cases ends
  | some pair =>
    obtain ⟨least, greatest⟩ := pair
    obtain ⟨member, member', between⟩ := leastAndGreatest_spec ends
    have whole {v : Float} (among : v ∈ values.filter Float.isFinite) : code v < infinityCode := by
      have finite := (List.mem_filter.1 among).2
      rwa [isFinite_iff] at finite
    refine .inr ⟨least, greatest, by rw [window, ends], List.mem_filter.1 member,
      List.mem_filter.1 member', fun v among finite => ?_⟩
    have among' : v ∈ values.filter Float.isFinite := List.mem_filter.2 ⟨among, finite⟩
    exact ⟨toReal_le_of_rank (whole member) (whole among') (between v among').1,
      toReal_le_of_rank (whole among') (whole member') (between v among').2⟩

/-! ## The three positions of the ends -/

variable {least greatest : Float}

namespace EndAt

/-- What the window shows, in terms of exact values. -/
theorem windowShows_iff (ends : EndAt values least greatest) {low high : Float}
    (opened : widened least greatest = (low, high)) (finite : code low < infinityCode)
    (finite' : code high < infinityCode) :
    WindowShows values ↔
      toReal low < toReal high ∧ toReal low ≤ toReal least ∧ toReal greatest ≤ toReal high := by
  have whole {v : Float} (isFinite : v.isFinite = true) : code v < infinityCode := by
    rwa [isFinite_iff] at isFinite
  rw [WindowShows, ends.opened, opened, lt_iff finite finite']
  refine and_congr_right fun _ => ⟨fun shown => ?_, fun ⟨below, above⟩ v among isFinite => ?_⟩
  · have lower := (shown least ends.mem.1 ends.mem.2).1
    have upper := (shown greatest ends.mem'.1 ends.mem'.2).2
    rw [le_iff finite (whole ends.mem.2)] at lower
    rw [le_iff (whole ends.mem'.2) finite'] at upper
    exact ⟨lower, upper⟩
  · rw [le_iff finite (whole isFinite), le_iff (whole isFinite) finite']
    obtain ⟨lower, upper⟩ := ends.between v among isFinite
    exact ⟨below.trans lower, upper.trans above⟩

/-- Ends on both sides of zero, or at it. -/
theorem windowShows_of_both (ends : EndAt values least greatest) (isEnd : IsEnd least)
    (isEnd' : IsEnd greatest) (nonpos : toReal least ≤ 0) (nonneg : 0 ≤ toReal greatest) :
    WindowShows values ∧ AreShowable values := by
  constructor
  · obtain ⟨finite, finite', negative, positive, below, above⟩ := shows_widened
      ⟨isEnd.finite, isEnd'.finite, isEnd.bounded, isEnd'.bounded, nonpos, nonneg,
        fun nonzero => by simpa [abs_of_nonpos nonpos, le_neg] using isEnd.apart nonzero,
        fun nonzero => by simpa [abs_of_nonneg nonneg] using isEnd'.apart nonzero⟩
    exact (ends.windowShows_iff rfl finite finite').2 ⟨negative.trans positive, below, above⟩
  · refine .inl ⟨⟨least, ends.mem.1, ends.mem.2, ?_⟩, greatest, ends.mem'.1, ends.mem'.2, ?_⟩
    · exact (nonpos_iff isEnd.finite).2 nonpos
    · exact (nonneg_iff isEnd'.finite).2 nonneg

/-- Ends above zero, which have to be the same number. -/
theorem windowShows_iff_of_positive (ends : EndAt values least greatest) (isEnd : IsEnd least)
    (isEnd' : IsEnd greatest) (positive : 0 < toReal least) :
    (WindowShows values ↔ toReal least = toReal greatest) ∧
      (AreShowable values ↔ toReal least = toReal greatest) := by
  have positive' : 0 < toReal greatest :=
    positive.trans_le (ends.between least ends.mem.1 ends.mem.2).2
  have opened := widened_of_nonzero isEnd.finite isEnd'.finite positive.ne' positive'.ne'
  obtain ⟨narrowed, outward⟩ := isEnd.of_positive positive
  constructor
  · by_cases same : toReal least = toReal greatest
    · rw [if_pos same] at opened
      rw [ends.windowShows_iff opened isEnd.finite_div (widen_spec isEnd.finite isEnd.bounded).1]
      exact iff_of_true ⟨narrowed.trans outward, narrowed.le, same ▸ outward.le⟩ same
    · rw [if_neg same] at opened
      rw [ends.windowShows_iff opened (widen_spec isEnd.finite isEnd.bounded).1
        (widen_spec isEnd'.finite isEnd'.bounded).1]
      exact iff_of_false (fun shown => shown.2.1.not_gt outward) same
  · constructor
    · rintro (⟨⟨v, among, finite, nonpos⟩, -⟩ | ⟨c, -, all⟩)
      · have whole : code v < infinityCode := isFinite_iff.1 finite
        rw [nonpos_iff whole] at nonpos
        exact absurd (ends.between v among finite).1 (nonpos.trans_lt positive).not_ge
      · rw [all least ends.mem.1 ends.mem.2, all greatest ends.mem'.1 ends.mem'.2]
    · intro same
      refine .inr ⟨least, ?_, fun v among finite => ?_⟩
      · exact (positive_iff isEnd.finite).2 positive
      · have whole : code v < infinityCode := isFinite_iff.1 finite
        obtain ⟨lower, upper⟩ := ends.between v among finite
        exact eq_of_toReal_eq whole isEnd.finite positive.ne'
          ((upper.trans same.ge).antisymm lower)

/-- Ends below zero. -/
theorem not_windowShows_of_negative (ends : EndAt values least greatest) (isEnd : IsEnd least)
    (isEnd' : IsEnd greatest) (negative : toReal greatest < 0) :
    ¬ WindowShows values ∧ ¬ AreShowable values := by
  have negative' : toReal least < 0 :=
    (ends.between greatest ends.mem'.1 ends.mem'.2).1.trans_lt negative
  have opened := widened_of_nonzero isEnd.finite isEnd'.finite negative'.ne negative.ne
  constructor
  · by_cases same : toReal least = toReal greatest
    · rw [if_pos same] at opened
      rw [ends.windowShows_iff opened isEnd.finite_div (widen_spec isEnd.finite isEnd.bounded).1]
      exact fun shown => shown.2.1.not_gt (isEnd.of_negative negative').2
    · rw [if_neg same] at opened
      rw [ends.windowShows_iff opened (widen_spec isEnd.finite isEnd.bounded).1
        (widen_spec isEnd'.finite isEnd'.bounded).1]
      exact fun shown => shown.2.2.not_gt (isEnd'.of_negative negative).1
  · rintro (⟨-, v, among, finite, nonneg⟩ | ⟨c, positive, all⟩)
    · have whole : code v < infinityCode := isFinite_iff.1 finite
      rw [nonneg_iff whole] at nonneg
      exact absurd (ends.between v among finite).2 (negative.trans_le nonneg).not_ge
    · rw [← all least ends.mem.1 ends.mem.2, positive_iff isEnd.finite] at positive
      exact positive.not_gt negative'

end EndAt

end

/-- The window of moderate values goes upwards and shows all of them exactly if they lie on both sides
of zero or at it, or are one positive number. -/
theorem windowShows_iff_areShowable (values : List Float) (moderate : AreModerate values) :
    WindowShows values ↔ AreShowable values := by
  rcases exists_ends values with ⟨noneFinite, opened⟩ | ⟨least, greatest, ends⟩
  · have upwards : (-10 : Float) < 10 := by decide
    refine iff_of_true ⟨by rwa [opened], fun v among finite => ?_⟩
      (.inr ⟨1, by decide, fun v among finite => ?_⟩)
    all_goals
      rw [noneFinite v among] at finite
      cases finite
  · have isEnd := moderate.isEnd ends.mem.1 ends.mem.2
    have isEnd' := moderate.isEnd ends.mem'.1 ends.mem'.2
    rcases lt_or_ge 0 (toReal least) with positive | nonpos
    · obtain ⟨shows, showable⟩ := ends.windowShows_iff_of_positive isEnd isEnd' positive
      exact shows.trans showable.symm
    rcases lt_or_ge (toReal greatest) 0 with negative | nonneg
    · obtain ⟨hides, unshowable⟩ := ends.not_windowShows_of_negative isEnd isEnd' negative
      exact iff_of_false hides unshowable
    · obtain ⟨shows, showable⟩ := ends.windowShows_of_both isEnd isEnd' nonpos nonneg
      exact iff_of_true shows showable

/-- Values on both sides of zero, and one that is not finite. -/
theorem windowShows_iff_areShowable_signs :
    AreModerate [-1, 0 / 0, 1e300] ∧ AreShowable [-1, 0 / 0, 1e300] ∧
      WindowShows [-1, 0 / 0, 1e300] := by
  have moderate : AreModerate [-1, 0 / 0, 1e300] := by decide +kernel
  have showable : AreShowable [-1, 0 / 0, 1e300] :=
    .inl ⟨⟨-1, by simp, by decide +kernel⟩, 1e300, by simp, by decide +kernel⟩
  exact ⟨moderate, showable, (windowShows_iff_areShowable _ moderate).2 showable⟩

/-- The window of a single negative value goes downwards. -/
theorem not_windowShows_negativeTwo :
    AreModerate [-2] ∧ (window [-2]).2 < (window [-2]).1 ∧ ¬ WindowShows [-2] := by
  decide +kernel

end Formulae
