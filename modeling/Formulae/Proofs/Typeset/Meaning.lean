import Formulae.Proofs.Typeset.Reading

/-!
# The meaning of a printed formula

A printed formula shows no braces.  It is read as an expression that is equal, up to the brackets of
sums and products, to the one that it was printed from, and so has the same exact value
(`exists_reading`).

The one exception is a power whose base is a literal with a minus sign.  Its base has no brackets, and
without the braces the exponent belongs to the magnitude alone (`not_reads_negativeTwo_squared`).
-/

namespace Formulae

open Formulae.Number (isNegative)
open Typeset

/-! ## Cells without braces -/

/-- The cells of an expression as they are seen, in front of a row. -/
def Expr.seen (e : Expr) (rest : Row) : Row := (e.cells .empty).visible rest

theorem visible_group {e : Expr}
    (visible : ∀ rest after, (e.cells rest).visible after = e.seen (rest.visible after))
    (needed : Bool) (rest after : Row) :
    (groupCells needed e.cells rest).visible after =
      groupCells needed e.seen (rest.visible after) := by
  cases needed with
  | false => exact visible rest after
  | true => rfl

/-- Braces are taken out in front of a row as they are in front of none. -/
theorem visible_cells (e : Expr) (rest after : Row) :
    (e.cells rest).visible after = e.seen (rest.visible after) := by
  induction e generalizing rest after with
  | literal value =>
    change (literalCells value rest).visible after =
      (literalCells value .empty).visible (rest.visible after)
    unfold literalCells
    split <;> rfl
  | var name => rfl
  | constant c => rfl
  | binary op l r left right =>
    cases op with
    | plus =>
      change (l.cells (.plus (r.cells rest))).visible after =
        (l.cells (.plus (r.cells .empty))).visible (rest.visible after)
      simp only [left, right, Row.visible]
    | minus =>
      change (l.cells (.minus (groupCells r.isAdditive r.cells rest))).visible after =
        (l.cells (.minus (groupCells r.isAdditive r.cells .empty))).visible (rest.visible after)
      simp only [left, visible_group right, Row.visible]
    | times | divide | power => rfl
  | apply f u argument => rfl

namespace Expr

variable {e l r : Expr}

theorem seen_group (needed : Bool) (e : Expr) (rest : Row) :
    (groupCells needed e.cells .empty).visible rest = groupCells needed e.seen rest :=
  visible_group (visible_cells e) needed .empty rest

theorem seen_literal (value : Float) : (literal value).seen = literalCells value := by
  funext rest
  change (literalCells value .empty).visible rest = _
  unfold literalCells
  split <;> rfl

theorem seen_plus (l r : Expr) :
    (plus l r).seen = fun rest => l.seen (.plus (r.seen rest)) := by
  funext rest
  change (l.cells (.plus (r.cells .empty))).visible rest = _
  rw [visible_cells]
  rfl

theorem seen_minus (l r : Expr) :
    (minus l r).seen = fun rest => l.seen (.minus (groupCells r.isAdditive r.seen rest)) := by
  funext rest
  change (l.cells (.minus (groupCells r.isAdditive r.cells .empty))).visible rest = _
  rw [visible_cells, Row.visible, seen_group]

theorem seen_times (l r : Expr) :
    (times l r).seen = fun rest =>
      groupCells (l.isAdditive || l.isApplication) l.seen
        (.dot (groupCells r.isAdditive r.seen rest)) := by
  funext rest
  change (groupCells (l.isAdditive || l.isApplication) l.cells .empty).visible
    (.dot ((groupCells r.isAdditive r.cells .empty).visible rest)) = _
  rw [seen_group, seen_group]

theorem seen_divide (l r : Expr) :
    (divide l r).seen = .fraction (l.seen .empty) (r.seen .empty) :=
  rfl

theorem seen_power (l r : Expr) :
    (power l r).seen = fun rest =>
      groupCells l.isCompound l.seen (.raised (groupCells r.isAdditive r.seen .empty) rest) := by
  funext rest
  change (groupCells l.isCompound l.cells .empty).visible
    (.raised ((groupCells r.isAdditive r.cells .empty).visible .empty) rest) = _
  rw [seen_group, seen_group]

theorem seen_apply (f : Function) (u : Expr) :
    (apply f u).seen = .applied f (groupCells u.isCompound u.seen .empty) := by
  funext rest
  change Row.applied f ((groupCells u.isCompound u.cells .empty).visible .empty) rest = _
  rw [seen_group]

/-! ## Reading what is seen -/

/-- Whether the expression is a literal that is printed with a minus sign. -/
def isSigned : Expr → Bool
  | literal value => isNegative value
  | _ => false

/-- No base of a power is a literal with a minus sign. -/
def basesUnsigned : Expr → Bool
  | binary op l r => !(op == .power && l.isSigned) && l.basesUnsigned && r.basesUnsigned
  | apply _ u => u.basesUnsigned
  | _ => true

/-- Without a minus sign, a base is an operand. -/
theorem readsOperand_base {p : Front} (unsigned : e.isSigned = false)
    (reads : ReadsAs ChainLaw e.seen e) :
    ReadsOperand ChainLaw p (groupCells e.isCompound e.seen) e := by
  cases e with
  | literal value =>
    change ReadsOperand ChainLaw p (literal value).seen (literal value)
    rw [seen_literal, literalCells_of_not_negative unsigned]
    exact .operand _
  | var | constant => exact .operand _
  | binary | apply => exact .brackets reads.alone

/-- Without braces, an expression is read back up to the brackets of sums and products. -/
theorem reads_seen (unsigned : e.basesUnsigned = true) : ReadsAs ChainLaw e.seen e := by
  induction e with
  | literal value =>
    rw [seen_literal]
    exact .literal value
  | var name => exact .of_operand fun _ => .operand _
  | constant c => exact .of_operand fun _ => .operand _
  | binary op l r left right =>
    simp only [basesUnsigned, Bool.and_eq_true, Bool.not_eq_true'] at unsigned
    obtain ⟨⟨base, unsignedLeft⟩, unsignedRight⟩ := unsigned
    have readsLeft := left unsignedLeft
    have readsRight := right unsignedRight
    cases op with
    | plus =>
      rw [seen_plus]
      exact readsLeft.plus (fun _ _ => .sum) readsRight
    | minus =>
      rw [seen_minus]
      exact readsLeft.minus readsRight
    | times =>
      rw [seen_times]
      refine .of_factor fun p admits => .dot (readsLeft.groupFactor ?_ admits)
        (fun front => readsRight.groupFactor id ?_) (admits.times l r)
      · intro additive
        rw [additive, Bool.true_or]
      · exact ⟨rfl, fun l r => .symm (.law (.times front l r))⟩
    | divide => exact readsLeft.fraction readsRight
    | power =>
      rw [seen_power]
      exact .of_factor fun p admits =>
        (readsOperand_base base readsLeft).raised (readsRight.group _) admits.unsigned
  | apply f u argument =>
    rw [seen_apply]
    exact (argument unsigned).applied f _

/-- A formula without a signed base is read, as it is printed, with the value that it has. -/
theorem exists_reading (legible : e.Legible) (unsigned : e.basesUnsigned = true) :
    ∃ row s, layout e.tex = some row ∧ (row.visible .empty).read = some s ∧
      ∀ r, s.real r = e.real r ∧ (s.IsDefined r ↔ e.IsDefined r) := by
  obtain ⟨s, read, equal⟩ := (reads_seen unsigned).alone.read
  exact ⟨e.cells .empty, s, layout_tex legible, read, fun r => ⟨equal.real_eq, equal.isDefined_iff⟩⟩

/-- A difference with a signed factor, a negative exponent and a quotient. -/
theorem exists_reading_difference :
    let x := var "x"
    let e := minus (times (literal (-3)) (times x (power x (literal (-2)))))
      (plus one (divide x (plus x (minus two x))))
    e.Legible ∧ e.basesUnsigned = true ∧
      ∃ row s, layout e.tex = some row ∧ (row.visible .empty).read = some s ∧
        ∀ r, s.real r = e.real r ∧ (s.IsDefined r ↔ e.IsDefined r) := by
  intro x e
  have legible : e.Legible := by decide
  have unsigned : e.basesUnsigned = true := by decide
  exact ⟨legible, unsigned, exists_reading legible unsigned⟩

/-- A signed base is read as the negative of the power of its magnitude. -/
theorem exists_reading_signed {x : Float} (sign : isNegative x = true)
    (unsigned : r.basesUnsigned = true) :
    ∃ s, ((power (literal x) r).seen .empty).read = some s ∧
      EqualUpTo ChainLaw s (power (literal (-x)) r).negate := by
  obtain ⟨s, read, equal⟩ := ((reads_seen unsigned).group r.isAdditive).read
  refine ⟨(power (literal (-x)) s).negate, ?_,
    .binary .times (.refl _) (.binary .power (.refl _) equal)⟩
  rw [seen_power]
  change ((literal x).seen _).readOperand .start = _
  rw [seen_literal, literalCells_of_negative sign]
  change (do
    let exponent ← (groupCells r.isAdditive r.seen .empty).read
    Row.empty.readOn { Front.start with negative := true } (power (literal (-x)) exponent) true)
    = _
  rw [read]
  rfl

/-- The square of `-2` is read as `-4`. -/
theorem not_reads_negativeTwo_squared :
    let e := power (literal (-2)) two
    e.Legible ∧ (∀ r, e.IsDefined r) ∧
      ¬ ∃ row s, layout e.tex = some row ∧ (row.visible .empty).read = some s ∧
        ∀ r, e.IsDefined r → s.real r = e.real r := by
  intro e
  have legible : e.Legible := by decide
  have finite : (-2 : Float).isFinite = true ∧ (2 : Float).isFinite = true := by decide
  have opposite : -(-2 : Float) = 2 := Number.neg_neg 2
  have isDefined (r : String → ℝ) : e.IsDefined r := by
    refine ⟨finite.1, finite.2, .inr (.inr ?_)⟩
    rw [real_literal, real_two, Number.toReal_neg, Number.toReal_two]
    exact ⟨by norm_num, 2, by norm_num⟩
  refine ⟨legible, isDefined, ?_⟩
  rintro ⟨row, s, printed, read, value⟩
  rw [layout_tex legible] at printed
  cases printed
  obtain ⟨s', read', equal⟩ := exists_reading_signed (x := -2) (r := two) (by decide) rfl
  obtain rfl := Option.some.inj (read.symm.trans read')
  have same := value (fun _ => 0) (isDefined _)
  rw [equal.real_eq, opposite] at same
  simp [e, Number.toReal_neg, Number.toReal_two] at same
  norm_num at same

end Expr

end Formulae
