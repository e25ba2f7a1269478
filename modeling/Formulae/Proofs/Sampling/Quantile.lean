import Formulae.Proofs.Number.Place
import Formulae.Proofs.Number.Sorted
import Formulae.Sampling.Quantile

/-!
# Quantiles are read from the list

The finite elements in order are a *ladder*, of at most `2 ^ 53` steps so that its indices are floats
(`IsLadder`).  The position of a quantile is a rounded product of two numbers, the first from zero to one
and the second the last index.  The last index is a float, so that rounding does not take the position
beyond it, and both neighbours are elements of the ladder (`neighbours_lt`).

At a whole position the neighbours are one element, and the quantile has its value
(`sortedQuantile_of_whole`).  The place of an element in the ladder tells how many elements are less
and how many are not greater (`IsLadder.isNthLeast`), which does not depend on sorting.

`quantile_spec` puts these together for the quantiles of any list.
-/

namespace Formulae

open Number

/-! ## Moving a fraction into the unit -/

theorem place_one : place 1 = code 1 := by decide

section

variable {q : Float}

/-- What is not before zero nor after one is finite. -/
theorem finite_of_between (defined : q.isNaN = false) (least : ¬ q < 0) (greatest : ¬ 1 < q) :
    code q < infinityCode ∧ 0 ≤ toReal q ∧ toReal q ≤ 1 := by
  have zero : (0 : Float).isNaN = false := rfl
  have one : (1 : Float).isNaN = false := by decide
  rw [lt_iff_place, and_iff_right ⟨defined, zero⟩, place_zero, not_lt] at least
  rw [lt_iff_place, and_iff_right ⟨one, defined⟩, place_one, not_lt] at greatest
  have finite : code q < infinityCode := by
    have magnitude := natAbs_signed (isNegative q) (code q)
    rw [← place] at magnitude
    have unit := finite_one
    omega
  refine ⟨finite, ?_, ?_⟩
  · rw [← nonneg_iff finite, le_iff_place, place_zero]
    exact ⟨⟨zero, defined⟩, least⟩
  · rw [← toReal_one, ← le_iff finite finite_one, le_iff_place, place_one]
    exact ⟨⟨defined, one⟩, greatest⟩

theorem clampToUnit_spec (defined : q.isNaN = false) :
    code (clampToUnit q) < infinityCode ∧ 0 ≤ toReal (clampToUnit q) ∧
      toReal (clampToUnit q) ≤ 1 := by
  unfold clampToUnit
  split
  · rw [toReal_zero]
    exact ⟨finite_zero, le_rfl, zero_le_one⟩
  next least =>
    split
    · rw [toReal_one]
      exact ⟨finite_one, zero_le_one, le_rfl⟩
    next greatest => exact finite_of_between defined least greatest

theorem clampToUnit_of_nonpos (nonpos : q ≤ 0) : toReal (clampToUnit q) = 0 := by
  unfold clampToUnit
  split
  · exact toReal_zero
  next least =>
    obtain ⟨⟨defined, -⟩, below⟩ := le_iff_place.1 nonpos
    have greatest : ¬ 1 < q := by
      rw [lt_iff_place]
      rintro ⟨-, above⟩
      exact absurd (above.trans_le below) (by decide)
    obtain ⟨finite, nonneg, -⟩ := finite_of_between defined least greatest
    rw [if_neg greatest]
    exact ((nonpos_iff finite).1 nonpos).antisymm nonneg

theorem clampToUnit_of_one_le (one_le : 1 ≤ q) : toReal (clampToUnit q) = 1 := by
  obtain ⟨⟨-, defined⟩, above⟩ := le_iff_place.1 one_le
  have least : ¬ q < 0 := by
    rw [lt_iff_place]
    rintro ⟨-, below⟩
    exact absurd (above.trans_lt below) (by decide)
  unfold clampToUnit
  rw [if_neg least]
  split
  · exact toReal_one
  next greatest =>
    obtain ⟨finite, -, le_one⟩ := finite_of_between defined least greatest
    rw [le_iff finite_one finite, toReal_one] at one_le
    exact le_one.antisymm one_le

theorem clampToUnit_of_mem (nonneg : 0 ≤ q) (le_one : q ≤ 1) : clampToUnit q = q := by
  have least : ¬ q < 0 := fun below =>
    (le_iff_place.1 nonneg).2.not_gt (lt_iff_place.1 below).2
  have greatest : ¬ 1 < q := fun above =>
    (le_iff_place.1 le_one).2.not_gt (lt_iff_place.1 above).2
  rw [clampToUnit, if_neg least, if_neg greatest]

end

/-! ## Ladders -/

/-- Some finite numbers in order, few enough to have floats as indices. -/
structure IsLadder (s : List Float) : Prop where
  /-- There is a number. -/
  some : 0 < s.length
  /-- There are few enough. -/
  few : s.length ≤ 2 ^ 53
  /-- They are finite. -/
  finite : ∀ x ∈ s, code x < infinityCode
  /-- They are in order. -/
  ordered : s.Pairwise fun x y => toReal x ≤ toReal y

/-- The position of a quantile among the elements. -/
def position (s : List Float) (q : Float) : Float := clampToUnit q * ofNat (s.length - 1)

section

variable {s values : List Float} {q v : Float} {i j : ℕ}

theorem isLadder_sorted (few : values.length ≤ 2 ^ 53) (some : ∃ v ∈ values, v.isFinite = true) :
    IsLadder (sorted (values.filter Float.isFinite)) := by
  have perm := sorted_perm (values.filter Float.isFinite)
  have finite : ∀ x ∈ sorted (values.filter Float.isFinite), code x < infinityCode := by
    intro x among
    rw [perm.mem_iff, List.mem_filter, isFinite_iff] at among
    exact among.2
  refine ⟨?_, ?_, finite, ?_⟩
  · obtain ⟨v, among, finite⟩ := some
    rw [perm.length_eq]
    exact List.length_pos_of_mem (List.mem_filter.2 ⟨among, finite⟩)
  · rw [perm.length_eq]
    exact (List.length_filter_le _ _).trans few
  · refine (isRanked_sorted _).imp_of_mem fun among among' before => ?_
    exact toReal_le_of_rank (finite _ among) (finite _ among') before

namespace IsLadder

theorem finite_getD (ladder : IsLadder s) (inside : i < s.length) :
    code (s.getD i 0) < infinityCode := by
  rw [List.getD_eq_getElem s 0 inside]
  exact ladder.finite _ (List.getElem_mem inside)

theorem toReal_getD_le (ladder : IsLadder s) (before : i ≤ j) (inside : j < s.length) :
    toReal (s.getD i 0) ≤ toReal (s.getD j 0) := by
  rcases before.lt_or_eq with less | rfl
  · rw [List.getD_eq_getElem s 0 (less.trans inside), List.getD_eq_getElem s 0 inside]
    exact List.pairwise_iff_getElem.1 ladder.ordered i j _ _ less
  · exact le_rfl

/-! ## Positions -/

/-- The last index is a float, and so the position is not rounded beyond it. -/
theorem position_spec (ladder : IsLadder s) (defined : q.isNaN = false) :
    IsNearest (position s q) (toReal (clampToUnit q) * (s.length - 1 : ℕ)) ∧
      code (position s q) < infinityCode ∧ 0 ≤ toReal (position s q) ∧
      toReal (position s q) ≤ (s.length - 1 : ℕ) := by
  obtain ⟨finite, nonneg, le_one⟩ := clampToUnit_spec defined
  have few := (Nat.sub_le s.length 1).trans ladder.few
  obtain ⟨small, same⟩ := toReal_ofNat few
  have nearest := isNearest_mul finite small
  rw [same] at nearest
  exact ⟨nearest, nearest.between isFloat_zero (isFloat_natCast few)
    (mul_nonneg nonneg (Nat.cast_nonneg _)) (mul_le_of_le_one_left (Nat.cast_nonneg _) le_one)⟩

theorem neighbours_lt (ladder : IsLadder s) (defined : q.isNaN = false) :
    floorNat (position s q) ≤ ceilNat (position s q) ∧ ceilNat (position s q) < s.length := by
  obtain ⟨-, finite, nonneg, atMost⟩ := ladder.position_spec defined
  have some := ladder.some
  rw [floorNat_eq finite, ceilNat_eq finite, abs_of_nonneg nonneg]
  have last := Nat.ceil_le.2 atMost
  exact ⟨Nat.floor_le_ceil _, by omega⟩

/-- At a whole position the quantile has the value of the element. -/
theorem sortedQuantile_of_whole (ladder : IsLadder s) (defined : q.isNaN = false)
    (whole : toReal (position s q) = i) :
    i < s.length ∧ code (sortedQuantile s q) < infinityCode ∧
      toReal (sortedQuantile s q) = toReal (s.getD i 0) := by
  obtain ⟨-, finite, nonneg, -⟩ := ladder.position_spec defined
  have above := (ladder.neighbours_lt defined).2
  have floor : floorNat (position s q) = i := by
    rw [floorNat_eq finite, whole, Nat.abs_cast, Nat.floor_natCast]
  have ceil : ceilNat (position s q) = i := by
    rw [ceilNat_eq finite, whole, Nat.abs_cast, Nat.ceil_natCast]
  rw [ceil] at above
  have element := ladder.finite_getD above
  obtain ⟨small, same⟩ := toReal_ofNat (above.le.trans ladder.few)
  -- The difference, the fraction and their product are zero.
  obtain ⟨finite', none⟩ := sub_of_toReal_eq element element rfl
  obtain ⟨finite'', -⟩ := sub_of_toReal_eq finite small (whole.trans same.symm)
  have product := isNearest_mul finite' finite''
  rw [none, zero_mul] at product
  obtain ⟨zero, none'⟩ := product.exact isFloat_zero
  have sum := isNearest_add element zero
  rw [none', add_zero] at sum
  have read : sortedQuantile s q = s.getD i 0 + (s.getD i 0 - s.getD i 0) *
      (position s q - ofNat i) := by
    change s.getD (floorNat (position s q)) 0 + (s.getD (ceilNat (position s q)) 0 -
      s.getD (floorNat (position s q)) 0) * (position s q - ofNat (floorNat (position s q))) = _
    rw [floor, ceil]
  rw [read]
  exact ⟨above, sum.exact (isFloat_toReal element)⟩

theorem toReal_position_of_nonpos (ladder : IsLadder s) (nonpos : q ≤ 0) :
    toReal (position s q) = (0 : ℕ) := by
  obtain ⟨⟨defined, -⟩, -⟩ := le_iff_place.1 nonpos
  obtain ⟨nearest, -⟩ := ladder.position_spec defined
  rw [clampToUnit_of_nonpos nonpos, zero_mul] at nearest
  rw [(nearest.exact isFloat_zero).2, Nat.cast_zero]

theorem toReal_position_of_one_le (ladder : IsLadder s) (one_le : 1 ≤ q) :
    toReal (position s q) = (s.length - 1 : ℕ) := by
  obtain ⟨⟨-, defined⟩, -⟩ := le_iff_place.1 one_le
  obtain ⟨nearest, -⟩ := ladder.position_spec defined
  rw [clampToUnit_of_one_le one_le, one_mul] at nearest
  exact (nearest.exact (isFloat_natCast ((Nat.sub_le s.length 1).trans ladder.few))).2

/-- The quantile at zero and before is not greater than any element. -/
theorem sortedQuantile_le (ladder : IsLadder s) (nonpos : q ≤ 0) {x : Float} (among : x ∈ s) :
    sortedQuantile s q ≤ x := by
  obtain ⟨⟨defined, -⟩, -⟩ := le_iff_place.1 nonpos
  obtain ⟨-, finite, same⟩ :=
    ladder.sortedQuantile_of_whole defined (ladder.toReal_position_of_nonpos nonpos)
  obtain ⟨j, inside, rfl⟩ := List.mem_iff_getElem.1 among
  have before := ladder.toReal_getD_le (Nat.zero_le j) inside
  rwa [← same, List.getD_eq_getElem s 0 inside,
    ← le_iff finite (ladder.finite _ (List.getElem_mem inside))] at before

/-- The quantile at one and behind is not less than any element. -/
theorem le_sortedQuantile (ladder : IsLadder s) (one_le : 1 ≤ q) {x : Float} (among : x ∈ s) :
    x ≤ sortedQuantile s q := by
  obtain ⟨⟨-, defined⟩, -⟩ := le_iff_place.1 one_le
  obtain ⟨last, finite, same⟩ :=
    ladder.sortedQuantile_of_whole defined (ladder.toReal_position_of_one_le one_le)
  obtain ⟨j, inside, rfl⟩ := List.mem_iff_getElem.1 among
  have before := ladder.toReal_getD_le (Nat.le_sub_one_of_lt inside) last
  rwa [← same, List.getD_eq_getElem s 0 inside,
    ← le_iff (ladder.finite _ (List.getElem_mem inside)) finite] at before

end IsLadder

end

/-! ## The place of an element by counting -/

/-- The number is an element up to the sign of zero.  At most `i` elements are less, and more than `i`
are not greater. -/
structure IsNthLeast (xs : List Float) (i : ℕ) (v : Float) : Prop where
  /-- It is an element. -/
  among : ∃ x ∈ xs, (v == x) = true
  /-- At most `i` elements are less. -/
  before : xs.countP (· < v) ≤ i
  /-- More than `i` elements are not greater. -/
  after : i < xs.countP (· ≤ v)

section

variable {s xs values : List Float} {q v : Float} {i : ℕ}

theorem IsNthLeast.of_perm (nth : IsNthLeast s i v) (perm : s.Perm xs) : IsNthLeast xs i v where
  among := by
    obtain ⟨x, among, same⟩ := nth.among
    exact ⟨x, perm.mem_iff.1 among, same⟩
  before := perm.countP_eq _ ▸ nth.before
  after := perm.countP_eq _ ▸ nth.after

/-- The elements from an index on are not less than the one there, and those up to it not greater. -/
theorem IsLadder.isNthLeast (ladder : IsLadder s) (inside : i < s.length)
    (finite : code v < infinityCode) (same : toReal v = toReal (s.getD i 0)) :
    IsNthLeast s i v where
  among := by
    rw [List.getD_eq_getElem s 0 inside] at same
    have element := ladder.finite _ (List.getElem_mem inside)
    exact ⟨s[i], List.getElem_mem inside, (beq_iff finite element).2 same⟩
  before := by
    have none : (s.drop i).countP (· < v) = 0 := by
      rw [List.countP_eq_zero]
      intro x among
      obtain ⟨j, within, rfl⟩ := List.mem_iff_getElem.1 among
      rw [List.length_drop] at within
      have inside' : i + j < s.length := by omega
      have least := ladder.toReal_getD_le (Nat.le_add_right i j) inside'
      rw [← same, List.getD_eq_getElem s 0 inside'] at least
      rw [List.getElem_drop, decide_eq_true_iff,
        lt_iff (ladder.finite _ (List.getElem_mem inside')) finite]
      exact least.not_gt
    calc s.countP (· < v)
        = (s.take i ++ s.drop i).countP (· < v) := by rw [List.take_append_drop]
      _ = (s.take i).countP (· < v) := by rw [List.countP_append, none, Nat.add_zero]
      _ ≤ (s.take i).length := List.countP_le_length
      _ ≤ i := List.length_take_le i s
  after := by
    have all : (s.take (i + 1)).countP (· ≤ v) = (s.take (i + 1)).length := by
      rw [List.countP_eq_length]
      intro x among
      obtain ⟨j, within, rfl⟩ := List.mem_iff_getElem.1 among
      rw [List.length_take] at within
      have inside' : j < s.length := by omega
      have greatest := ladder.toReal_getD_le (i := j) (j := i) (by omega) inside
      rw [← same, List.getD_eq_getElem s 0 inside'] at greatest
      rw [List.getElem_take, decide_eq_true_iff,
        le_iff (ladder.finite _ (List.getElem_mem inside')) finite]
      exact greatest
    calc i < (s.take (i + 1)).length := by rw [List.length_take]; omega
      _ = (s.take (i + 1)).countP (· ≤ v) := all.symm
      _ ≤ s.countP (· ≤ v) := (List.take_sublist (i + 1) s).countP_le

/-! ## Quantiles of any list -/

theorem isEmpty_sorted_iff :
    (sorted (values.filter Float.isFinite)).isEmpty = true ↔ ∀ v ∈ values, v.isFinite = false := by
  have perm := sorted_perm (values.filter Float.isFinite)
  rw [List.isEmpty_iff, ← List.length_eq_zero_iff, perm.length_eq, List.length_eq_zero_iff,
    List.filter_eq_nil_iff]
  simp only [Bool.not_eq_true]

theorem quantile_eq_none_iff :
    quantile values q = none ↔ ∀ v ∈ values, v.isFinite = false := by
  rw [← isEmpty_sorted_iff, quantile]
  split
  next none => exact ⟨fun _ => none, fun _ => rfl⟩
  next some =>
    exact ⟨fun absurd => (Option.some_ne_none _ absurd).elim, fun none => (some none).elim⟩

theorem quantile_of_some (some : ∃ v ∈ values, v.isFinite = true) :
    quantile values q = .some (sortedQuantile (sorted (values.filter Float.isFinite)) q) := by
  obtain ⟨v, among, finite⟩ := some
  refine if_neg fun none => ?_
  rw [isEmpty_sorted_iff.1 none v among] at finite
  exact Bool.false_ne_true finite

theorem exists_finite_of_quantile (found : quantile values q = some v) :
    ∃ v ∈ values, v.isFinite = true := by
  by_contra none
  simp only [not_exists, not_and, Bool.not_eq_true] at none
  rw [quantile_eq_none_iff.2 none] at found
  cases found

/-- Both indices are in the list, and the value is the lower element and the part of the difference that
the position is behind it. -/
def ReadsInside (s : List Float) (q v : Float) : Prop :=
  ∃ (below : floorNat (position s q) < s.length) (above : ceilNat (position s q) < s.length),
    v = s[floorNat (position s q)] + (s[ceilNat (position s q)] - s[floorNat (position s q)]) *
      (position s q - ofNat (floorNat (position s q)))

theorem IsLadder.readsInside (ladder : IsLadder s) (defined : q.isNaN = false) :
    ReadsInside s q (sortedQuantile s q) := by
  obtain ⟨ordered, above⟩ := ladder.neighbours_lt defined
  refine ⟨ordered.trans_lt above, above, ?_⟩
  rw [← List.getD_eq_getElem s 0 above, ← List.getD_eq_getElem s 0 (ordered.trans_lt above)]
  rfl

/-- Quantiles are read inside the list of the finite elements in order, and nothing else of the list
matters.  There is none just if no element is finite.  The quantile at zero and before is the least of the
finite elements and the quantile at one and behind the greatest, and a whole position tells the place of
the quantile among them. -/
theorem quantile_spec (few : values.length < 2 ^ 53) (defined : q.isNaN = false) :
    (quantile values q = none ↔ ∀ v ∈ values, v.isFinite = false) ∧
      (∀ others : List Float,
        (others.filter Float.isFinite).Perm (values.filter Float.isFinite) →
          quantile others q = quantile values q) ∧
      ∀ v, quantile values q = some v →
        ReadsInside (sorted (values.filter Float.isFinite)) q v ∧
          (q ≤ 0 → (∃ x ∈ values.filter Float.isFinite, (v == x) = true) ∧
            ∀ x ∈ values.filter Float.isFinite, v ≤ x) ∧
          (1 ≤ q → (∃ x ∈ values.filter Float.isFinite, (v == x) = true) ∧
            ∀ x ∈ values.filter Float.isFinite, x ≤ v) ∧
          (0 ≤ q → q ≤ 1 → ∀ i : ℕ,
            toReal (q * ofNat ((values.filter Float.isFinite).length - 1)) = i →
              IsNthLeast (values.filter Float.isFinite) i v) := by
  refine ⟨quantile_eq_none_iff, fun others perm => ?_, fun v found => ?_⟩
  · rw [quantile, quantile, sorted_congr perm]
  have some := exists_finite_of_quantile found
  rw [quantile_of_some some, Option.some_inj] at found
  subst found
  have ladder := isLadder_sorted few.le some
  have perm := sorted_perm (values.filter Float.isFinite)
  have nth : ∀ {i : ℕ}, toReal (position (sorted (values.filter Float.isFinite)) q) = i →
      IsNthLeast (values.filter Float.isFinite) i
        (sortedQuantile (sorted (values.filter Float.isFinite)) q) := fun whole =>
    have ⟨inside, finite, same⟩ := ladder.sortedQuantile_of_whole defined whole
    (ladder.isNthLeast inside finite same).of_perm perm
  refine ⟨ladder.readsInside defined, fun nonpos => ⟨?_, fun x among => ?_⟩,
    fun one_le => ⟨?_, fun x among => ?_⟩, fun nonneg le_one i whole => ?_⟩
  · exact (nth (ladder.toReal_position_of_nonpos nonpos)).among
  · exact ladder.sortedQuantile_le nonpos (perm.mem_iff.2 among)
  · exact (nth (ladder.toReal_position_of_one_le one_le)).among
  · exact ladder.le_sortedQuantile one_le (perm.mem_iff.2 among)
  · rw [← perm.length_eq, ← clampToUnit_of_mem nonneg le_one] at whole
    exact nth whole

/-- The middle one of three finite elements stands at the half, and an infinite fraction finds the
greatest one.  Another order and other infinite elements do not change them. -/
theorem quantile_spec_three :
    let values : List Float := [3, 1 / 0, -1, 0 / 0, 2]
    values.length < 2 ^ 53 ∧ (0.5 : Float).isNaN = false ∧ (1 / 0 : Float).isNaN = false ∧
      quantile values 0.5 = some 2 ∧ quantile values (1 / 0) = some 3 ∧
      quantile [-1 / 0, 2, 3, -1] 0.5 = some 2 ∧ IsNthLeast (values.filter Float.isFinite) 1 2 ∧
      ∀ x ∈ values.filter Float.isFinite, x ≤ 3 := by
  intro values
  have few : values.length < 2 ^ 53 := by decide
  have half : (0.5 : Float).isNaN = false := by decide
  have beyond : (1 / 0 : Float).isNaN = false := by decide
  have some : ∃ v ∈ values, v.isFinite = true := ⟨3, List.mem_cons_self, by decide⟩
  have ladder : sorted (values.filter Float.isFinite) = [-1, 2, 3] :=
    sorted_eq_of_perm (by decide) (by decide)
  have middle : quantile values 0.5 = .some 2 := by
    rw [quantile_of_some some, ladder]
    decide +kernel
  have greatest : quantile values (1 / 0) = .some 3 := by
    rw [quantile_of_some some, ladder]
    decide +kernel
  have position : toReal (0.5 * ofNat ((values.filter Float.isFinite).length - 1)) = (1 : ℕ) :=
    toReal_eq_intCast (by decide +kernel) (by decide +kernel)
  obtain ⟨-, others, reads⟩ := quantile_spec few half
  obtain ⟨-, -, reads'⟩ := quantile_spec few beyond
  refine ⟨few, half, beyond, middle, greatest, ?_, ?_, ?_⟩
  · rw [others [-1 / 0, 2, 3, -1] (by decide), middle]
  · exact (reads 2 middle).2.2.2 (by decide) (by decide) 1 position
  · exact ((reads' 3 greatest).2.2.1 (by decide)).2

end

end Formulae
