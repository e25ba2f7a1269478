import Formulae.Formula.Basic
import Formulae.Proofs.Derivative.Variables
import Formulae.Proofs.Reduction.FixedPoint

/-!
# Steps of work on a formula

`Expr.Step` lists what the program does to an expression that it has read: it differentiates by any
variable, reduces, negates, reads the canonical text back, and asks one of its two simplifiers.
`Formula.Step` lists the steps on formulas, which are made of steps on their expressions
(`Formula.Step.tree`).

Two of the steps write a text and read it.  They keep the variables because every variable of the
expression is read as itself (`Expr.Named`), and all steps keep this property.  So after any number
of steps there is no variable that the first expression does not have (`Expr.Steps.usesOnly`), and a
formula still fits the kind of its curve (`Formula.Steps.fits`).
-/

namespace Formulae

/-! ## Steps on expressions -/

/-- One step of work on an expression. -/
inductive Expr.Step : Expr → Expr → Prop where
  | differentiated (v : String) (e : Expr) : Step e (e.derivative v)
  | reduced (A : Arithmetic Float) (e : Expr) : Step e (e.reduce A)
  | negated (e : Expr) : Step e e.negate
  | reread {e e' : Expr} : parse e.canonical = .ok e' → Step e e'
  | simplified {e e' : Expr} : e.simplify .algebraic = .ok e' → Step e e'
  | passed {e e' : Expr} : e.simplify .passthrough = .ok e' → Step e e'

/-- Any number of steps. -/
abbrev Expr.Steps : Expr → Expr → Prop := Relation.ReflTransGen Expr.Step

namespace Expr

variable {names : List String} {e e' : Expr}

theorem Named.of_usesOnly (named : e.Named) (inside : e'.UsesOnly e.occurrences) : e'.Named :=
  fun name occurs => named name (inside occurs)

/-- The simplifier that changes nothing leaves the reading of the text. -/
theorem simplify_passthrough : e.simplify .passthrough = .ok e' ↔ parse e.canonical = .ok e' := by
  rw [simplify_eq_ok_iff]
  simp [Simplifier.passthrough]

theorem usesOnly_of_parse_canonical (named : e.Named) (read : parse e.canonical = .ok e') :
    e'.UsesOnly e.occurrences := by
  obtain ⟨-, rfl⟩ := (parse_canonical_eq_ok_iff named).1 read
  exact occurrences_expand e

/-- A step brings in no variable. -/
theorem Step.usesOnly (step : Step e e') (named : e.Named) : e'.UsesOnly e.occurrences := by
  cases step with
  | differentiated v => exact occurrences_derivative v e
  | reduced A => exact occurrences_reduce A e
  | negated => exact usesOnly_negate.2 (List.Subset.refl _)
  | reread read => exact usesOnly_of_parse_canonical named read
  | simplified answered =>
    obtain ⟨-, -, rfl⟩ := (simplify_algebraic_eq_ok_iff named).1 answered
    exact List.Subset.trans (occurrences_reduce _ _) (occurrences_expand e)
  | passed answered => exact usesOnly_of_parse_canonical named (simplify_passthrough.1 answered)

theorem Steps.usesOnly (steps : Steps e e') (named : e.Named) : e'.UsesOnly e.occurrences := by
  induction steps with
  | refl => exact List.Subset.refl _
  | tail _ step before =>
    exact List.Subset.trans (step.usesOnly (named.of_usesOnly before)) before

end Expr

/-! ## Steps on formulas -/

/-- One step of work on a formula. -/
inductive Formula.Step : Formula → Formula → Prop where
  | differentiated (v : String) (f : Formula) : Step f (f.derivative v)
  | simplified {f f' : Formula} : f.simplified .algebraic = .ok f' → Step f f'
  | passed {f f' : Formula} : f.simplified .passthrough = .ok f' → Step f f'

/-- Any number of steps. -/
abbrev Formula.Steps : Formula → Formula → Prop := Relation.ReflTransGen Formula.Step

namespace Formula

variable {f f' : Formula}

theorem simplified_eq_ok_iff {s : Simplifier} :
    f.simplified s = .ok f' ↔ ∃ e, f.tree.simplify s = .ok e ∧ f' = f.withTree e := by
  rw [simplified, bind_eq_ok_iff]
  simp [eq_comm]

/-- A step on a formula is a step on its expression. -/
theorem Step.tree (step : Step f f') : Expr.Step f.tree f'.tree ∧ f'.kind = f.kind := by
  cases step with
  | differentiated v => exact ⟨.differentiated v f.tree, rfl⟩
  | simplified answered =>
    obtain ⟨e, answer, rfl⟩ := simplified_eq_ok_iff.1 answered
    exact ⟨.simplified answer, rfl⟩
  | passed answered =>
    obtain ⟨e, answer, rfl⟩ := simplified_eq_ok_iff.1 answered
    exact ⟨.passed answer, rfl⟩

theorem Steps.tree (steps : Steps f f') : Expr.Steps f.tree f'.tree ∧ f'.kind = f.kind := by
  induction steps with
  | refl => exact ⟨.refl, rfl⟩
  | tail _ step before => exact ⟨before.1.tail step.tree.1, step.tree.2.trans before.2⟩

/-- Fewer variables are fewer names. -/
theorem length_variableNames_le (inside : f'.tree.UsesOnly f.tree.occurrences) :
    f'.variableNames.length ≤ f.variableNames.length := by
  refine (List.subperm_of_subset (nodup_distinct _) ?_).length_le
  intro name occurs
  exact mem_distinct.2 (inside (mem_distinct.1 occurs))

theorem read_eq_ok_iff {source : String} :
    read source = .ok f ↔ ∃ e, parse source = .ok e ∧ f = ⟨source, e, none⟩ := by
  unfold read
  cases parse source with
  | error cause => simp
  | ok e => simp [eq_comm]

/-- What is read for a curve is the expression of the text, and it fits the curve. -/
theorem of_readFor {kind : CurveKind} {source : String} (accepted : readFor kind source = .ok f) :
    parse source = .ok f.tree ∧ f.kind = some kind ∧
      f.variableNames.length ≤ kind.allowedVariables := by
  obtain ⟨g, limited, returned⟩ := bind_eq_ok_iff.1 accepted
  obtain ⟨h, read, checked⟩ := bind_eq_ok_iff.1 limited
  obtain ⟨e, parsed, rfl⟩ := read_eq_ok_iff.1 read
  cases returned
  dsimp only at checked
  split at checked
  next => cases checked
  next fits =>
    cases checked
    exact ⟨parsed, rfl, Nat.le_of_not_lt fits⟩

/-- Steps on a formula that was read for a curve keep its kind and leave it fit for the curve. -/
theorem Steps.fits {kind : CurveKind} {source : String} (accepted : readFor kind source = .ok f)
    (steps : Steps f f') :
    f'.kind = some kind ∧ f'.variableNames.length ≤ kind.allowedVariables := by
  obtain ⟨parsed, ofKind, fits⟩ := of_readFor accepted
  obtain ⟨treeSteps, sameKind⟩ := steps.tree
  have inside := treeSteps.usesOnly (named_of_parse parsed)
  exact ⟨sameKind.trans ofKind, (length_variableNames_le inside).trans fits⟩

end Formula

/-! ## Formulas that were read -/

/-- No steps bring in a variable, and a formula keeps fitting its curve. -/
theorem variables_of_steps :
    (∀ (source : String) (e e' : Expr), parse source = .ok e → Expr.Steps e e' →
      ∀ name ∈ e'.occurrences, name ∈ e.occurrences ∧ IsVariableName name) ∧
    ∀ (source : String) (kind : CurveKind) (f f' : Formula),
      Formula.readFor kind source = .ok f → Formula.Steps f f' →
        f'.kind = some kind ∧ f'.variableNames.length ≤ kind.allowedVariables := by
  refine ⟨?_, fun _ _ _ _ accepted steps => steps.fits accepted⟩
  intro source e e' parsed steps name occurs
  have named := named_of_parse parsed
  have inFirst := steps.usesOnly named occurs
  exact ⟨inFirst, named name inFirst⟩

/-- The derivative of a formula of a curve, simplified. -/
theorem variables_of_steps_product :
    let e := Expr.times (.var "y") (.apply .acot (.var "x"))
    let quotient := Expr.divide .negativeOne (.plus .one (.power (.var "x") .two))
    let e' := Expr.times (.var "y") quotient
    let f : Formula := ⟨"y acotx", e, some .implicit⟩
    let f' : Formula := ⟨e'.canonical, e', some .implicit⟩
    parse "y acotx" = .ok e ∧ Expr.Steps e e' ∧
      (∀ name ∈ e'.occurrences, name ∈ e.occurrences ∧ IsVariableName name) ∧
      Formula.readFor .implicit "y acotx" = .ok f ∧ Formula.Steps f f' ∧
      f'.kind = some .implicit ∧ f'.variableNames.length ≤ 2 := by
  intro e quotient e' f f'
  have parsed : parse "y acotx" = .ok e := by decide +kernel
  have derivative : e.derivative "x" = .times (.var "y") (.times quotient .one) := by cbv
  have named : (e.derivative "x").Named := by
    rw [derivative]
    decide
  have simplified : (e.derivative "x").simplify .algebraic = .ok e' := by
    refine (Expr.simplify_algebraic_eq_ok_iff named).2 ?_
    rw [derivative]
    exact ⟨by decide, by decide, by decide⟩
  have accepted : Formula.readFor .implicit "y acotx" = .ok f := by
    rw [Formula.readFor, Formula.readLimited, Formula.read, parsed]
    rfl
  have answered : (f.derivative "x").simplified .algebraic = .ok f' :=
    Formula.simplified_eq_ok_iff.2 ⟨e', simplified, rfl⟩
  have steps : Expr.Steps e e' :=
    (Relation.ReflTransGen.single (.differentiated "x" e)).tail (.simplified simplified)
  have formulaSteps : Formula.Steps f f' :=
    (Relation.ReflTransGen.single (.differentiated "x" f)).tail (.simplified answered)
  obtain ⟨onExpressions, onFormulas⟩ := variables_of_steps
  exact ⟨parsed, steps, onExpressions _ _ _ parsed steps, accepted, formulaSteps,
    onFormulas _ _ _ _ accepted formulaSteps⟩

end Formulae
