import Mathlib.Order.Monotone.Basic
import Mathlib.Tactic.Ring
import Formulae.Number.Nearest
import Formulae.Proofs.Number.Bits

/-!
# Magnitudes in steps

`steps` is strictly increasing, and `codeAtMost` finds the greatest code whose magnitude does not
exceed a number of steps (`steps_codeAtMost_le`, `lt_steps_codeAtMost_succ`).  Both follow from the
shape of a code: it is small, or it is made of whole binades and a remainder that is the mantissa
(`steps_mul_add`).

So the nearest code to a fraction is the one in whose rounding interval the fraction lies
(`nearestCode_eq`).
-/

namespace Formulae.Number

/-! ## The magnitude of a code -/

theorem binade_pos : 0 < binade := by decide

theorem steps_of_lt {c : Nat} (small : c < binade) : steps c = c := by
  have quotient : c / binade = 0 := Nat.div_eq_of_lt small
  unfold steps
  split
  next => rfl
  next e positive => rw [quotient] at positive; cases positive

theorem steps_of_quotient {c e : Nat} (quotient : c / binade = e + 1) :
    steps c = (binade + c % binade) * 2 ^ e := by
  rw [← Nat.shiftLeft_eq]
  unfold steps
  split
  next zero => rw [zero] at quotient; cases quotient
  next positive => rw [positive] at quotient; rw [Nat.succ.inj quotient]

section

variable {q : Nat} (e : Nat)

/-- The quotient of a code that is made of whole binades and a mantissa. -/
theorem mul_add_div_binade (least : binade ≤ q) (small : q < 2 * binade) :
    (e * binade + q) / binade = e + 1 := by
  rw [Nat.mul_comm, Nat.mul_add_div binade_pos]
  congr 1
  exact Nat.div_eq_of_lt_le (by omega) (by omega)

theorem mul_add_mod_binade (least : binade ≤ q) (small : q < 2 * binade) :
    binade + (e * binade + q) % binade = q := by
  rw [Nat.mul_comm, Nat.mul_add_mod, Nat.mod_eq_sub_mod least, Nat.mod_eq_of_lt (by omega)]
  omega

/-- The magnitude of a mantissa, some binades up.  The mantissa may be that of the next binade. -/
theorem steps_mul_add (least : binade ≤ q) (greatest : q ≤ 2 * binade) :
    steps (e * binade + q) = q * 2 ^ e := by
  rcases Nat.lt_or_eq_of_le greatest with small | whole
  · rw [steps_of_quotient (mul_add_div_binade e least small), mul_add_mod_binade e least small]
  · have quotient : (e * binade + 2 * binade) / binade = e + 1 + 1 := by
      rw [← Nat.add_mul, Nat.mul_div_cancel _ binade_pos]
    have remainder : (e * binade + 2 * binade) % binade = 0 := by
      rw [← Nat.add_mul, Nat.mul_mod_left]
    rw [whole, steps_of_quotient quotient, remainder, Nat.add_zero, Nat.pow_succ]
    ring

end

/-- A code that is not small is made of whole binades and a mantissa. -/
theorem exists_mul_add {c : Nat} (large : binade ≤ c) :
    ∃ e q, c = e * binade + q ∧ binade ≤ q ∧ q < 2 * binade := by
  have division := Nat.div_add_mod' c binade
  have remainder := Nat.mod_lt c binade_pos
  have positive : 0 < c / binade := Nat.div_pos large binade_pos
  obtain ⟨e, whole⟩ := Nat.exists_eq_add_of_lt positive
  rw [whole] at division
  refine ⟨e, binade + c % binade, ?_, by omega, by omega⟩
  rw [Nat.zero_add, Nat.add_mul, Nat.one_mul] at division
  omega

theorem steps_lt_steps_succ (c : Nat) : steps c < steps (c + 1) := by
  by_cases small : c + 1 < binade
  · rw [steps_of_lt small, steps_of_lt (by omega)]
    exact Nat.lt_succ_self c
  · by_cases last : c < binade
    · have next := steps_mul_add 0 (q := c + 1) (by omega) (by omega)
      rw [Nat.zero_mul, Nat.zero_add] at next
      rw [steps_of_lt last, next]
      omega
    · obtain ⟨e, q, rfl, least, greatest⟩ := exists_mul_add (Nat.not_lt.1 last)
      rw [Nat.add_assoc, steps_mul_add e least (by omega), steps_mul_add e (by omega) (by omega)]
      exact Nat.mul_lt_mul_of_pos_right (Nat.lt_succ_self q) (Nat.two_pow_pos e)

theorem steps_strictMono : StrictMono steps := strictMono_nat_of_lt_succ steps_lt_steps_succ

/-- The distance to the next magnitude, compared with the magnitude. -/
theorem steps_lt_mul_gap (c : Nat) : steps c < 2 * binade * (steps (c + 1) - steps c) := by
  have next := steps_lt_steps_succ c
  by_cases small : c < binade
  · have gap : 1 ≤ steps (c + 1) - steps c := by omega
    have scaled := Nat.mul_le_mul_left (2 * binade) gap
    rw [steps_of_lt small] at *
    omega
  · obtain ⟨e, q, rfl, least, greatest⟩ := exists_mul_add (Nat.not_lt.1 small)
    rw [Nat.add_assoc, steps_mul_add e least (by omega), steps_mul_add e (by omega) (by omega),
      ← Nat.sub_mul, Nat.add_sub_cancel_left, Nat.one_mul]
    exact Nat.mul_lt_mul_of_pos_right greatest (Nat.two_pow_pos e)

/-! ## The code of a number of steps -/

/-- The code found is the greatest one whose magnitude is at most the number of steps. -/
theorem codeAtMost_spec (n : Nat) : steps (codeAtMost n) ≤ n ∧ n < steps (codeAtMost n + 1) := by
  unfold codeAtMost
  dsimp only
  by_cases small : n < binade
  · have noBinade : n.log2 - 52 = 0 := by
      rcases Nat.eq_zero_or_pos n with rfl | positive
      · rfl
      · have fewer : n.log2 < 52 := (Nat.log2_lt (Nat.ne_of_gt positive)).2 small
        omega
    rw [noBinade, Nat.zero_mul, Nat.zero_add, Nat.shiftRight_zero]
    have magnitude := steps_of_lt small
    have next := steps_lt_steps_succ n
    omega
  · have nonzero : n ≠ 0 := by
      have positive := binade_pos
      omega
    have bits : 52 ≤ n.log2 := (Nat.le_log2 nonzero).2 (Nat.not_lt.1 small)
    obtain ⟨e, exponent⟩ := Nat.exists_eq_add_of_le bits
    have lower : binade * 2 ^ e ≤ n := by
      have log := Nat.log2_self_le nonzero
      rwa [exponent, Nat.pow_add] at log
    have upper : n < 2 * binade * 2 ^ e := by
      have log := @Nat.lt_log2_self n
      rwa [exponent, show 52 + e + 1 = 53 + e by omega, Nat.pow_add] at log
    rw [show n.log2 - 52 = e by omega, Nat.shiftRight_eq_div_pow]
    have least : binade ≤ n / 2 ^ e := (Nat.le_div_iff_mul_le (Nat.two_pow_pos e)).2 lower
    have greatest : n / 2 ^ e < 2 * binade := Nat.div_lt_of_lt_mul (by rwa [Nat.mul_comm])
    rw [Nat.add_assoc, steps_mul_add e least (by omega), steps_mul_add e (by omega) (by omega)]
    exact ⟨Nat.div_mul_le_self n _, Nat.lt_mul_of_div_lt (Nat.lt_succ_self _) (Nat.two_pow_pos e)⟩

/-! ## The nearest code -/

/-- A fraction between the midpoints to the neighbours of a code rounds to this code.  If the code
is odd, then the midpoints themselves round to the neighbours. -/
theorem nearestCode_eq {c numerator denominator : Nat} (positive : 0 < denominator)
    (defined : c ≤ infinityCode)
    (above : (steps (c - 1) + steps c) * denominator ≤ 2 * (numerator * stepsPerUnit))
    (below : 2 * (numerator * stepsPerUnit) ≤ (steps c + steps (c + 1)) * denominator)
    (inside : c % 2 = 1 →
      (steps (c - 1) + steps c) * denominator < 2 * (numerator * stepsPerUnit) ∧
        2 * (numerator * stepsPerUnit) < (steps c + steps (c + 1)) * denominator) :
    nearestCode numerator denominator = c := by
  unfold nearestCode
  dsimp only
  generalize numerator * stepsPerUnit = scaled at *
  obtain ⟨least, greatest⟩ := codeAtMost_spec (scaled / denominator)
  generalize codeAtMost (scaled / denominator) = b at *
  rw [Nat.le_div_iff_mul_le positive] at least
  rw [Nat.div_lt_iff_lt_mul positive] at greatest
  have scale : ∀ {i j : Nat}, i ≤ j → steps i * denominator ≤ steps j * denominator :=
    fun le => Nat.mul_le_mul_right _ (steps_strictMono.monotone le)
  have step : steps c * denominator < steps (c + 1) * denominator :=
    Nat.mul_lt_mul_of_pos_right (steps_lt_steps_succ c) positive
  have step' := scale (Nat.sub_le c 1)
  simp only [Nat.add_mul] at *
  have notAfter : b ≤ c := by
    by_contra after
    have far := scale (show c + 1 ≤ b by omega)
    omega
  have notBefore : c - 1 ≤ b := by
    by_contra before
    have far := scale (show b + 1 ≤ c - 1 by omega)
    omega
  rcases Nat.lt_or_eq_of_le notAfter with previous | rfl
  · -- The fraction lies before the code: it is at least the midpoint below the code.
    obtain rfl : c = b + 1 := by omega
    rw [Nat.add_sub_cancel] at above inside
    rw [if_neg (by omega)]
    split
    next => exact Nat.min_eq_left defined
    next =>
      split
      next => omega
      next => exact Nat.min_eq_left defined
  · -- The fraction does not lie before the code: it is at most the midpoint above the code.
    split
    next => exact Nat.min_eq_left defined
    next =>
      rw [if_neg (by omega)]
      split
      next => exact Nat.min_eq_left defined
      next => omega

end Formulae.Number
