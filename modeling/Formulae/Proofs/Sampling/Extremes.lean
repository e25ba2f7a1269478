import Mathlib.Data.List.Induction
import Mathlib.Order.WithBot
import Formulae.Proofs.Sampling.Tally

/-!
# The extremes of weighted values

The extremes are found by scans that begin with a default and replace it by what has a better product.
What such a scan has found is the default as long as nothing has been better, and otherwise the first
of the best elements so far (`Leads`).  One more element keeps this (`Leads.step`), and so does a list
(`leads_foldl`).

Products are compared by their places on the number line, upwards for the greatest product and
downwards for the least (`IsOrderOf`).  This includes infinite products.  An undefined product never
wins, and there is none among fewer than `2 ^ 64` samples (`isNaN_product`).

A product has the sign of its value, so the least value is not above zero and the greatest is not
below (`weightedExtremes_spec`).
-/

namespace Formulae

open Number

/-! ## Scans for the first best element -/

section

variable {α β : Type*} [LinearOrder β] {key : α → β} {d best : α} {as : List α}

/-- The element is the first one with the greatest key. -/
def IsFirstGreatest (key : α → β) (as : List α) (a : α) : Prop :=
  ∃ before after, as = before ++ a :: after ∧ (∀ b ∈ before, key b < key a) ∧
    ∀ b ∈ after, key b ≤ key a

/-- What a scan that begins with a default has found in the elements so far. -/
inductive Leads (key : α → β) (d : α) (as : List α) : α → Prop where
  /-- No element is better than the default. -/
  | default : (∀ a ∈ as, key a ≤ key d) → Leads key d as d
  /-- The first of the best elements is better than the default. -/
  | found {best : α} : key d < key best → IsFirstGreatest key as best → Leads key d as best

namespace Leads

theorem default_le (leads : Leads key d as best) : key d ≤ key best := by
  cases leads with
  | default => exact le_rfl
  | found more => exact more.le

theorem le (leads : Leads key d as best) : ∀ a ∈ as, key a ≤ key best := by
  cases leads with
  | default all => exact all
  | found _ first =>
    obtain ⟨before, after, rfl, less, atMost⟩ := first
    intro a among
    rcases List.mem_append.1 among with early | late
    · exact (less a early).le
    · rcases List.mem_cons.1 late with rfl | late
      · exact le_rfl
      · exact atMost a late

/-- One more element takes the lead if its key is greater. -/
theorem step (leads : Leads key d as best) (a : α) :
    Leads key d (as ++ [a]) (if key best < key a then a else best) := by
  split
  next more =>
    refine .found (leads.default_le.trans_lt more) ⟨as, [], rfl, fun b among => ?_, by simp⟩
    exact (leads.le b among).trans_lt more
  next notMore =>
    rw [not_lt] at notMore
    cases leads with
    | default all =>
      refine .default fun b among => ?_
      rcases List.mem_append.1 among with early | last
      · exact all b early
      · rwa [List.mem_singleton.1 last]
    | found more first =>
      obtain ⟨before, after, rfl, less, atMost⟩ := first
      refine .found more ⟨before, after ++ [a], by simp, less, fun b among => ?_⟩
      rcases List.mem_append.1 among with early | last
      · exact atMost b early
      · rwa [List.mem_singleton.1 last]

end Leads

/-- A scan ends with what leads all elements.  Its step need compare the keys only where the default
is not better than what has been found. -/
theorem leads_foldl {pick : α → α → α}
    (comparing : ∀ b a, key d ≤ key b → pick b a = if key b < key a then a else b) (as : List α) :
    Leads key d as (as.foldl pick d) := by
  -- The induction is from the end, as a scan takes its last step there.
  induction as using List.reverseRecOn with
  | nil => exact .default (by simp)
  | append_singleton as a induction =>
    rw [List.foldl_append, List.foldl_cons, List.foldl_nil, comparing _ a induction.default_le]
    exact induction.step a

end

/-! ## Orders of products -/

/-- A comparison of floats is that of their keys.  The undefined float has no key and neither beats
nor is beaten. -/
structure IsOrderOf (key : Float → WithBot ℤ) (beats : Float → Float → Prop) : Prop where
  /-- What is beaten is defined and has a lesser key. -/
  beats_iff (x y : Float) : beats x y ↔ y.isNaN = false ∧ key y < key x
  /-- Only the undefined float has no key. -/
  eq_bot_iff (x : Float) : key x = ⊥ ↔ x.isNaN = true

theorem IsOrderOf.asymm {key : Float → WithBot ℤ} {beats : Float → Float → Prop}
    (order : IsOrderOf key beats) (x y : Float) (more : beats x y) : ¬ beats y x := fun less =>
  lt_asymm ((order.beats_iff x y).1 more).2 ((order.beats_iff y x).1 less).2

/-- How far up a float is on the number line. -/
def height (x : Float) : WithBot ℤ := if x.isNaN then ⊥ else (place x : ℤ)

/-- How far down a float is on the number line. -/
def depth (x : Float) : WithBot ℤ := if x.isNaN then ⊥ else (-place x : ℤ)

theorem isOrderOf_height : IsOrderOf height (· > ·) where
  beats_iff x y := by
    change y < x ↔ _
    rw [lt_iff_place, height, height]
    cases undefined : x.isNaN <;> cases undefined' : y.isNaN <;> simp
  eq_bot_iff x := by
    rw [height]
    cases undefined : x.isNaN <;> simp

theorem isOrderOf_depth : IsOrderOf depth (· < ·) where
  beats_iff x y := by
    rw [lt_iff_place, depth, depth]
    cases undefined : x.isNaN <;> cases undefined' : y.isNaN <;> simp
  eq_bot_iff x := by
    rw [depth]
    cases undefined : x.isNaN <;> simp

/-- The first value whose product no other one beats, if there is a product that beats zero, and the
default otherwise. -/
structure IsExtreme (beats : Float → Float → Prop) (values : List Weighted) (w : Weighted) :
    Prop where
  /-- The product beats zero and those before it, and is not beaten by those after it. -/
  first : (∃ v ∈ values, beats v.product 0) → beats w.product 0 ∧
    ∃ before after, values = before ++ w :: after ∧
      (∀ v ∈ before, beats w.product v.product ∨ v.product.isNaN = true) ∧
      ∀ v ∈ after, ¬ beats v.product w.product
  /-- If no product beats zero, then it is the default. -/
  default : (∀ v ∈ values, ¬ beats v.product 0) → w = ⟨0, 1⟩

theorem product_default : (⟨0, 1⟩ : Weighted).product = 0 := by decide +kernel

section

variable {key : Float → WithBot ℤ} {beats : Float → Float → Prop} {values : List Weighted}
  {w : Weighted}

/-- An extreme is the default or a value whose product beats zero. -/
theorem IsExtreme.eq_or_mem (extreme : IsExtreme beats values w) :
    w = ⟨0, 1⟩ ∨ beats w.product 0 ∧ w ∈ values := by
  by_cases some : ∃ v ∈ values, beats v.product 0
  · obtain ⟨more, before, after, rfl, -, -⟩ := extreme.first some
    exact .inr ⟨more, by simp⟩
  · exact .inl (extreme.default fun v among more => some ⟨v, among, more⟩)

theorem IsExtreme.mem (extreme : IsExtreme beats values w) : w ∈ {} :: values := by
  rcases extreme.eq_or_mem with rfl | ⟨-, among⟩
  · exact List.mem_cons_self
  · exact List.mem_cons_of_mem _ among

/-- If no product is undefined, then none beats that of an extreme. -/
theorem IsExtreme.not_beats (order : IsOrderOf key beats) (extreme : IsExtreme beats values w)
    (defined : ∀ v ∈ values, v.product.isNaN = false) :
    ∀ v ∈ {} :: values, ¬ beats v.product w.product := by
  intro v among
  rcases List.mem_cons.1 among with rfl | among
  · rw [product_default]
    rcases extreme.eq_or_mem with rfl | ⟨more, -⟩
    · rw [product_default]
      exact fun more => order.asymm _ _ more more
    · exact order.asymm _ _ more
  · by_cases some : ∃ v ∈ values, beats v.product 0
    · obtain ⟨-, before, after, rfl, less, atMost⟩ := extreme.first some
      rcases List.mem_append.1 among with early | late
      · have beaten := (less v early).resolve_right (Bool.eq_false_iff.1 (defined v among))
        exact order.asymm _ _ beaten
      · rcases List.mem_cons.1 late with rfl | late
        · exact fun more => order.asymm _ _ more more
        · exact atMost v late
    · rw [extreme.default fun v among more => some ⟨v, among, more⟩, product_default]
      exact fun more => some ⟨v, among, more⟩

theorem IsOrderOf.isExtreme_of_leads (order : IsOrderOf key beats)
    (leads : Leads (fun v => key v.product) ⟨0, 1⟩ values w) : IsExtreme beats values w := by
  have beatsZero : ∀ x, beats x 0 ↔ key (⟨0, 1⟩ : Weighted).product < key x := fun x => by
    rw [order.beats_iff, product_default]
    exact and_iff_right rfl
  cases leads with
  | default all =>
    refine ⟨fun ⟨v, among, more⟩ => ?_, fun _ => rfl⟩
    exact absurd ((beatsZero _).1 more) (all v among).not_gt
  | found more first =>
    obtain ⟨before, after, rfl, less, atMost⟩ := first
    refine ⟨fun _ => ⟨(beatsZero _).2 more, before, after, rfl, fun v among => ?_, fun v among => ?_⟩,
      fun none => absurd ((beatsZero _).2 more) (none w (by simp))⟩
    · cases undefined : v.product.isNaN with
      | false => exact .inl ((order.beats_iff _ _).2 ⟨undefined, less v among⟩)
      | true => exact .inr rfl
    · exact fun more => ((order.beats_iff _ _).1 more).2.not_ge (atMost v among)

theorem IsOrderOf.isExtreme_foldl (order : IsOrderOf key beats)
    {pick : Weighted → Weighted → Weighted} [DecidableRel beats]
    (comparing : ∀ b w, pick b w = if beats w.product b.product then w else b)
    (values : List Weighted) : IsExtreme beats values (values.foldl pick {}) := by
  refine order.isExtreme_of_leads (leads_foldl (fun b w atLeast => ?_) values)
  -- What has been found is not undefined, since the default is not.
  have defined : b.product.isNaN = false := by
    rw [Bool.eq_false_iff, ne_eq, ← order.eq_bot_iff]
    rintro none
    rw [none, product_default, le_bot_iff, order.eq_bot_iff] at atLeast
    exact absurd atLeast (by decide)
  rw [comparing]
  exact if_congr ((order.beats_iff _ _).trans (and_iff_right defined)) rfl rfl

end

theorem isExtreme_weightedExtremes (samples : List Sample) :
    IsExtreme (· < ·) (weightedValues samples) (weightedExtremes samples).1 ∧
      IsExtreme (· > ·) (weightedValues samples) (weightedExtremes samples).2 :=
  ⟨isOrderOf_depth.isExtreme_foldl (fun _ _ => rfl) _,
    isOrderOf_height.isExtreme_foldl (fun _ _ => rfl) _⟩

/-! ## Signs of products -/

section

variable {samples : List Sample} {w : Weighted}

/-- A product with a weight is on the side of its value or zero. -/
theorem sides_of_product (defined : w.value.isNaN = false) (product : w.product.isNaN = false) :
    (w.product < 0 → w.value ≤ 0) ∧ (0 < w.product → 0 ≤ w.value) := by
  have both : w.value.isNaN = false ∧ (0 : Float).isNaN = false := ⟨defined, rfl⟩
  obtain ⟨above, below⟩ := place_mul_spec (isNaN_eq_false_iff.1 defined)
    (code_ofNat_le w.weight) (isNegative_ofNat w.weight)
    (isNaN_eq_false_iff.1 product)
  rw [lt_iff_place, lt_iff_place, le_iff_place, le_iff_place, place_zero, and_iff_right both,
    and_iff_right both.symm, Weighted.product]
  cases sign : isNegative w.value with
  | false =>
    have value : 0 ≤ place w.value := by rw [place, sign]; exact Int.natCast_nonneg _
    exact ⟨fun less => absurd less.2 (above sign).not_gt, fun _ => value⟩
  | true =>
    have value : place w.value ≤ 0 := by
      rw [place, sign]
      exact Int.neg_nonpos_of_nonneg (Int.natCast_nonneg _)
    exact ⟨fun _ => value, fun more => absurd more.2 (below sign).not_gt⟩

/-- A product beats zero only if its value is on that side of zero. -/
theorem sides_of_mem_weightedValues (among : w ∈ weightedValues samples) :
    (w.product < 0 → w.value ≤ 0) ∧ (0 < w.product → 0 ≤ w.value) := by
  have defined := (value_of_mem_weightedValues among).1
  exact ⟨fun less => (sides_of_product defined (lt_iff_place.1 less).1.1).1 less,
    fun more => (sides_of_product defined (lt_iff_place.1 more).1.2).2 more⟩

/-- No product of a value and its weight is undefined. -/
theorem isNaN_product (few : samples.length < 2 ^ 64) (among : w ∈ weightedValues samples) :
    w.product.isNaN = false := by
  obtain ⟨occurs, bounded⟩ := weight_of_mem_weightedValues among
  have small : |(w.weight : ℝ)| ≤ 2 ^ 64 := by
    rw [Nat.abs_cast]
    exact_mod_cast bounded.trans few.le
  obtain ⟨finite, -⟩ :=
    (isNearest_ofNat w.weight).abs_toReal_le (isFloat_two_pow (by norm_num)) small
  have defined := (value_of_mem_weightedValues among).1
  rw [isNaN_eq_false_iff] at defined ⊢
  rcases defined.lt_or_eq with value | infinite
  · exact (isNearest_mul value finite).code_le_infinityCode
  · exact (infinite_mul_spec infinite ⟨code_ofNat_pos occurs, finite.le⟩).2.le

end

/-- The extremes are the first values with the least and with the greatest product, as far as those
are negative and positive.  So the least value is not above zero and the greatest is not below.  No
product of fewer than `2 ^ 64` samples is undefined. -/
theorem weightedExtremes_spec :
    (∀ samples : List Sample,
      IsExtreme (· < ·) (weightedValues samples) (weightedExtremes samples).1 ∧
        IsExtreme (· > ·) (weightedValues samples) (weightedExtremes samples).2 ∧
        (weightedExtremes samples).1.value ≤ 0 ∧ 0 ≤ (weightedExtremes samples).2.value) ∧
      ∀ samples : List Sample, samples.length < 2 ^ 64 →
        ∀ w ∈ weightedValues samples, w.product.isNaN = false := by
  refine ⟨fun samples => ?_, fun samples few w among => isNaN_product few among⟩
  obtain ⟨least, greatest⟩ := isExtreme_weightedExtremes samples
  refine ⟨least, greatest, ?_, ?_⟩
  · rcases least.eq_or_mem with zero | ⟨less, among⟩
    · rw [zero]
      decide
    · exact (sides_of_mem_weightedValues among).1 less
  · rcases greatest.eq_or_mem with zero | ⟨more, among⟩
    · rw [zero]
      decide
    · exact (sides_of_mem_weightedValues among).2 more

/-- Two positive products are equal, of which the first wins, and no product is negative. -/
theorem weightedExtremes_tie :
    let samples : List Sample := [(0, 1.5), (1, 3), (2, 1.5), (3, 0 / 0)]
    samples.length < 2 ^ 64 ∧ weightedValues samples = [⟨1.5, 2⟩, ⟨3, 1⟩] ∧
      weightedExtremes samples = (⟨0, 1⟩, ⟨1.5, 2⟩) ∧
      IsExtreme (· > ·) (weightedValues samples) (weightedExtremes samples).2 ∧
      ∀ w ∈ weightedValues samples, w.product.isNaN = false :=
  ⟨by decide, by decide +kernel, by decide +kernel, (weightedExtremes_spec.1 _).2.1,
    weightedExtremes_spec.2 _ (by decide)⟩

end Formulae
