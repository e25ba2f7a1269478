import Formulae.Proofs.Derivative.Functions

/-!
# Regular assignments

`slice e v r` is an expression as a function of one variable, with the other variables at `r`.

`Regular v r e` asks for conditions at every part of `e` that mentions `v`.  Parts without `v` are
free to be anything, even undefined.  Under these conditions the slice is continuous
(`continuousAt_slice`).
-/

namespace Formulae.Expr

open Number (toReal)

variable {v : String} {r : String → ℝ} {a b e u : Expr}

/-! ## Slices -/

/-- The value of an expression as a function of one variable. -/
noncomputable def slice (e : Expr) (v : String) (r : String → ℝ) (s : ℝ) : ℝ :=
  e.real (Function.update r v s)

@[simp] theorem slice_self (e : Expr) : e.slice v r (r v) = e.real r := by
  rw [slice, Function.update_eq_self]

theorem slice_var (v : String) (r : String → ℝ) : (var v).slice v r = id := by
  funext s
  simp [slice]

theorem slice_plus : (plus a b).slice v r = a.slice v r + b.slice v r := rfl

theorem slice_minus : (minus a b).slice v r = a.slice v r - b.slice v r := rfl

theorem slice_times : (times a b).slice v r = a.slice v r * b.slice v r := rfl

theorem slice_divide : (divide a b).slice v r = a.slice v r / b.slice v r := rfl

theorem slice_power : (power a b).slice v r = fun s => a.slice v r s ^ b.slice v r s := rfl

theorem slice_apply {f : Function} :
    (apply f u).slice v r = Arithmetic.exact.apply f ∘ u.slice v r := rfl

/-- Without the variable, a slice is constant. -/
theorem slice_of_free (free : e.mentions v = false) : e.slice v r = fun _ => e.real r := by
  funext s
  induction e with
  | literal | constant => rfl
  | var name =>
      have differs : name ≠ v := by simpa [mentions] using free
      simp [slice, differs]
  | binary op a b ihA ihB =>
      obtain ⟨freeA, freeB⟩ : a.mentions v = false ∧ b.mentions v = false := by
        simpa [mentions] using free
      have valueA := ihA freeA
      have valueB := ihB freeB
      rw [slice] at valueA valueB ⊢
      rw [real, eval, ← real, ← real, valueA, valueB]
      rfl
  | apply f u ih =>
      have value := ih free
      rw [slice] at value ⊢
      rw [real_apply, value, real_apply]

/-! ## The conditions -/

/-- Every literal is a finite number. -/
def HasFiniteLiterals : Expr → Prop
  | literal x => x.isFinite = true
  | var _ => True
  | constant _ => True
  | binary _ a b => a.HasFiniteLiterals ∧ b.HasFiniteLiterals
  | apply _ u => u.HasFiniteLiterals

/-- The exponent is a literal with an integer value, which is fit for the given base. -/
def IsIntegerExponent (base : ℝ) (b : Expr) : Prop :=
  ∃ n, b = literal n ∧ (∃ k : ℤ, toReal n = k) ∧ (base ≠ 0 ∨ 1 ≤ toReal n)

/-- A literal exponent is lowered by one exactly. -/
def LowersExactly (b : Expr) : Prop :=
  ∀ n, b = literal n → ∃ z : Float, z.isFinite = true ∧ toReal z = toReal n - 1

/-- The conditions on an operation. -/
def RegularRoot (r : String → ℝ) : Operator → Expr → Expr → Prop
  | .divide, _, b => b.real r ≠ 0
  | .power, a, b => (0 < a.real r ∨ b.IsIntegerExponent (a.real r)) ∧ b.LowersExactly
  | .plus, _, _ | .minus, _, _ | .times, _, _ => True

/-- The conditions on every part that mentions a variable. -/
def Regular (v : String) (r : String → ℝ) : Expr → Prop
  | literal _ => True
  | var _ => True
  | constant _ => True
  | binary op a b =>
      a.Regular v r ∧ b.Regular v r ∧ ((binary op a b).mentions v = true → RegularRoot r op a b)
  | apply f u => u.Regular v r ∧ (u.mentions v = true → f.RegularAt (u.real r))

/-! ## Parts of a regular expression -/

/-- An exponent that mentions the variable has a positive base. -/
theorem base_pos (occurs : b.mentions v = true)
    (regular : RegularRoot r .power a b) : 0 < a.real r := by
  obtain ⟨positive | ⟨n, rfl, -⟩, -⟩ := regular
  · exact positive
  · cases occurs

/-- Where a power is differentiated by its base. -/
theorem base_ne_zero_or_one_le (regular : RegularRoot r .power a b) :
    a.real r ≠ 0 ∨ 1 ≤ b.real r := by
  obtain ⟨positive | ⟨n, rfl, -, fits⟩, -⟩ := regular
  · exact .inl positive.ne'
  · exact fits

/-! ## Continuity -/

theorem continuousAt_slice_power (continuousA : ContinuousAt (a.slice v r) (r v))
    (continuousB : ContinuousAt (b.slice v r) (r v)) (regular : RegularRoot r .power a b) :
    ContinuousAt ((power a b).slice v r) (r v) := by
  rw [slice_power]
  refine continuousA.rpow continuousB ?_
  rw [slice_self, slice_self]
  exact (base_ne_zero_or_one_le regular).imp_right fun least => by linarith

theorem continuousAt_slice_of_free (free : ¬ e.mentions v = true) (s : ℝ) :
    ContinuousAt (e.slice v r) s := by
  rw [slice_of_free (Bool.eq_false_of_not_eq_true free)]
  exact continuousAt_const

/-- Regular expressions are continuous in the variable. -/
theorem continuousAt_slice (regular : e.Regular v r) : ContinuousAt (e.slice v r) (r v) := by
  induction e with
  | literal | constant => exact continuousAt_const
  | var name =>
      by_cases same : name = v
      · subst same
        rw [slice_var]
        exact continuousAt_id
      · exact continuousAt_slice_of_free (by simpa [mentions] using same) (r v)
  | binary op a b ihA ihB =>
      obtain ⟨regularA, regularB, root⟩ := regular
      have continuousA := ihA regularA
      have continuousB := ihB regularB
      by_cases occurs : (binary op a b).mentions v = true
      · cases op with
        | plus => exact continuousA.add continuousB
        | minus => exact continuousA.sub continuousB
        | times => exact continuousA.mul continuousB
        | divide =>
            have nonzero : b.slice v r (r v) ≠ 0 := by
              rw [slice_self]
              exact root occurs
            exact continuousA.div continuousB nonzero
        | power => exact continuousAt_slice_power continuousA continuousB (root occurs)
      · exact continuousAt_slice_of_free occurs (r v)
  | apply f u ih =>
      obtain ⟨inner, outer⟩ := regular
      by_cases occurs : u.mentions v = true
      · have derivative := f.hasDerivAt_apply u r (outer occurs)
        rw [slice_apply]
        refine ContinuousAt.comp ?_ (ih inner)
        rw [slice_self]
        exact derivative.continuousAt
      · have free : ¬ (apply f u).mentions v = true := occurs
        exact continuousAt_slice_of_free free (r v)

end Formulae.Expr
