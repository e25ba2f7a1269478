import Formulae.Proofs.Typeset.Reading

/-!
# Formulas with the same TeX

The TeX of two expressions is the same if and only if they are equal up to the brackets of sums and
differences behind a plus sign (`tex_eq_iff`).

A row is read back with its braces.  These keep apart everything else, so no more than the law of
sums is lost.
-/

namespace Formulae

open Typeset

variable {a b : Expr}

/-! ## The same TeX -/

/-- The expressions are typeset in the same way wherever they stand. -/
structure TypesetAlike (a b : Expr) : Prop where
  tex : a.tex = b.tex
  isAdditive : a.isAdditive = b.isAdditive
  isApplication : a.isApplication = b.isApplication
  isCompound : a.isCompound = b.isCompound

theorem SumLaw.typesetAlike (law : SumLaw a b) : TypesetAlike a b := by
  cases law with
  | plus x y z => exact ⟨by simp [Expr.tex, String.append_assoc], rfl, rfl, rfl⟩
  | minus x y z => exact ⟨by simp [Expr.tex, String.append_assoc], rfl, rfl, rfl⟩

theorem EqualUpTo.typesetAlike (equal : EqualUpTo SumLaw a b) : TypesetAlike a b := by
  induction equal with
  | law holds => exact holds.typesetAlike
  | refl a => exact ⟨rfl, rfl, rfl, rfl⟩
  | symm _ other =>
    exact ⟨other.tex.symm, other.isAdditive.symm, other.isApplication.symm, other.isCompound.symm⟩
  | trans _ _ first second =>
    exact ⟨first.tex.trans second.tex, first.isAdditive.trans second.isAdditive,
      first.isApplication.trans second.isApplication, first.isCompound.trans second.isCompound⟩
  | binary op _ _ left right =>
    refine ⟨?_, rfl, rfl, rfl⟩
    cases op <;>
      simp only [Expr.tex, left.tex, left.isAdditive, left.isApplication, left.isCompound, right.tex,
        right.isAdditive]
  | apply f _ argument =>
    refine ⟨?_, rfl, rfl, rfl⟩
    simp only [Expr.tex, argument.tex, argument.isCompound]

/-! ## Reading back -/

/-- With braces, an expression is read back up to the brackets of sums. -/
theorem Expr.reads_cells (e : Expr) : ReadsAs SumLaw e.cells e := by
  induction e with
  | literal value => exact .literal value
  | var name => exact .of_operand fun _ => .operand _
  | constant c => exact .of_operand fun _ => .operand _
  | binary op l r left right =>
    have braces {e : Expr} (reads : ReadsAs SumLaw e.cells e) (needed : Bool) (p : Front) :
        ReadsOperand SumLaw p (.braces (groupCells needed e.cells .empty)) e :=
      .braces (reads.group needed)
    cases op with
    | plus => exact left.plus (fun _ _ law => law) right
    | minus => exact left.minus right
    | times =>
      exact .of_factor fun p admits =>
        .dot ((braces left _ p).factor admits.unsigned)
          (fun front => (braces right _ _).factor rfl) (admits.times l r)
    | divide => exact left.fraction right
    | power =>
      exact .of_factor fun p admits => (braces left _ p).raised (right.group _) admits.unsigned
  | apply f u argument => exact argument.applied f _

/-- Expressions with the same cells are equal up to the brackets of sums. -/
theorem EqualUpTo.of_cells (same : a.cells .empty = b.cells .empty) : EqualUpTo SumLaw a b := by
  obtain ⟨s, read, equal⟩ := a.reads_cells.alone.read
  obtain ⟨s', read', equal'⟩ := b.reads_cells.alone.read
  rw [same, read'] at read
  obtain rfl := Option.some.inj read
  exact equal.symm.trans equal'

/-- Two expressions have the same TeX if and only if they are equal up to the brackets of sums and
differences behind a plus sign.  So expressions with the same TeX have the same exact value. -/
theorem Expr.tex_eq_iff (legible : a.Legible) (legible' : b.Legible) :
    (a.tex = b.tex ↔ EqualUpTo SumLaw a b) ∧
      (a.tex = b.tex → ∀ r, a.real r = b.real r ∧ (a.IsDefined r ↔ b.IsDefined r)) := by
  have unique : a.tex = b.tex ↔ EqualUpTo SumLaw a b := by
    constructor
    · intro same
      have row := layout_tex legible
      rw [same, layout_tex legible'] at row
      exact .of_cells (Option.some.inj row).symm
    · exact fun equal => equal.typesetAlike.tex
  refine ⟨unique, fun same r => ?_⟩
  have chains : EqualUpTo ChainLaw a b := (unique.1 same).mono fun _ _ law => .sum law
  exact ⟨chains.real_eq, chains.isDefined_iff⟩

/-- The brackets of a difference are lost, those of a product are not. -/
theorem Expr.tex_eq_iff_difference_product :
    let x := var "x"
    let y := var "yy"
    let a := times (plus x (minus y (literal (0 / 0)))) (constant .pi)
    let b := times (minus (plus x y) (literal (0 / 0))) (constant .pi)
    let c := times x (times y two)
    let d := times (times x y) two
    (a.Legible ∧ b.Legible ∧ a ≠ b ∧ a.tex = b.tex) ∧
      c.Legible ∧ d.Legible ∧ ¬ EqualUpTo SumLaw c d := by
  intro x y a b c d
  have legible : a.Legible ∧ b.Legible ∧ c.Legible ∧ d.Legible := by decide
  have equal : EqualUpTo SumLaw a b := .binary .times (.law (.minus _ _ _)) (.refl _)
  have different : c.tex ≠ d.tex := by decide
  exact ⟨⟨legible.1, legible.2.1, by simp [a, b], (tex_eq_iff legible.1 legible.2.1).1.2 equal⟩,
    legible.2.2.1, legible.2.2.2, mt (tex_eq_iff legible.2.2.1 legible.2.2.2).1.2 different⟩

end Formulae
