import Mathlib.Data.Set.Function
import Formulae.Proofs.Canonical.Unique
import Formulae.Proofs.Derivative.Structural
import Formulae.Proofs.Derivative.Variables
import Formulae.Proofs.Reduction.FixedPoint
import Formulae.Slope

/-!
# Renaming variables

The names of variables do not matter.  `rename p` writes `p name` for every variable `name`.  If `p`
tells the variables of an expression apart, then renaming commutes with differentiating
(`derivative_rename`), reducing (`reduce_rename`) and simplifying (`simplify_algebraic_rename`).

Most of an expression is not touched by renaming, and for most definitions this is an equation in
which `p` is any function.  Two questions compare names.  Whether a variable occurs is answered from
the names themselves (`mentions_rename`).  The law `x - x = 0` compares texts, in which a name could
be mistaken for something else.  This cannot happen to names that are read as variables, because
their trees have the same text only if they are the same tree after writing out
(`sameAs_iff_writeOut_eq`), and renaming such trees is injective (`rename_injOn`).

`UsesOnly names` fixes the names that `p` has to tell apart, since an expression and all that is made
of it share them.
-/

namespace Formulae

namespace Expr

/-- The expression with other names for its variables. -/
def rename (p : String → String) : Expr → Expr
  | literal x => literal x
  | var name => var (p name)
  | constant c => constant c
  | binary op l r => binary op (l.rename p) (r.rename p)
  | apply f u => apply f (u.rename p)

variable {p : String → String} {names : List String} {v : String} {op : Operator}
  {a b e l r s u : Expr} {A : Arithmetic Float}

@[simp] theorem rename_literal (x : Float) : (literal x).rename p = literal x := rfl

@[simp] theorem rename_zero : zero.rename p = zero := rfl

@[simp] theorem rename_one : one.rename p = one := rfl

@[simp] theorem rename_two : two.rename p = two := rfl

@[simp] theorem rename_negativeOne : negativeOne.rename p = negativeOne := rfl

@[simp] theorem rename_constant (c : Constant) : (constant c).rename p = constant c := rfl

@[simp] theorem rename_binary : (binary op l r).rename p = binary op (l.rename p) (r.rename p) :=
  rfl

@[simp] theorem rename_apply {f : Function} : (apply f u).rename p = apply f (u.rename p) := rfl

theorem occurrences_rename (e : Expr) : (e.rename p).occurrences = e.occurrences.map p := by
  induction e with
  | literal | var | constant => rfl
  | binary op l r left right => simp [occurrences, left, right]
  | apply f u argument => simpa [occurrences] using argument

/-! ## What names do not matter to -/

@[simp] theorem isLiteral_rename (e : Expr) (number : Float) :
    (e.rename p).isLiteral number = e.isLiteral number := by
  cases e <;> rfl

@[simp] theorem isNumber_rename (e : Expr) : (e.rename p).isNumber = e.isNumber := by
  cases e <;> rfl

@[simp] theorem rename_eq_constant_iff {c : Constant} : e.rename p = constant c ↔ e = constant c := by
  cases e <;> simp [rename]

@[simp] theorem rename_negate (e : Expr) : e.negate.rename p = (e.rename p).negate := by
  cases e <;> rfl

@[simp] theorem rename_lowered (e : Expr) : e.lowered.rename p = (e.rename p).lowered := by
  cases e <;> rfl

@[simp] theorem rename_negateReduced (e : Expr) :
    e.negateReduced.rename p = (e.rename p).negateReduced := by
  fun_cases negateReduced e with
  | case1 l r factor => simp [negateReduced, factor]
  | case2 l r several => simp [negateReduced, several]
  | case3 e notProduct =>
    cases e with
    | binary op l r => cases op <;> first | rfl | exact absurd rfl (notProduct l r)
    | literal | var | constant | apply => rfl

theorem cost_rename (e : Expr) : (e.rename p).cost = e.cost := by
  induction e with
  | literal | var | constant => rfl
  | binary op l r left right => rw [rename_binary, cost_binary, cost_binary, left, right]
  | apply f u argument => rw [rename_apply, cost, cost, argument]

end Expr

theorem Function.rename_outerDerivative (f : Function) {p : String → String} {u : Expr} :
    (f.outerDerivative u).rename p = f.outerDerivative (u.rename p) := by
  cases f <;> rfl

theorem Function.rename_expand (f : Function) {p : String → String} {u : Expr} :
    (f.expand u).rename p = f.expand (u.rename p) := by
  cases f <;> rfl

theorem Function.rename_writeOut (f : Function) {p : String → String} {u : Expr} :
    (f.writeOut u).rename p = f.writeOut (u.rename p) := by
  cases f <;> rfl

theorem Function.occurrences_writeOut (f : Function) (u : Expr) :
    (f.writeOut u).occurrences = u.occurrences := by
  cases f <;> simp [writeOut, expand, Expr.occurrences, Expr.one, Expr.two]

theorem Operator.rename_derivativeRule (op : Operator) (leftMentions rightMentions : Bool)
    {p : String → String} {a b a' b' : Expr} :
    (op.derivativeRule leftMentions rightMentions a b a' b').rename p =
      op.derivativeRule leftMentions rightMentions (a.rename p) (b.rename p) (a'.rename p)
        (b'.rename p) := by
  cases leftMentions <;> cases rightMentions <;> cases op <;>
    simp [derivativeRule, apply_ite (Expr.rename p)]

namespace Expr

variable {p : String → String} {names : List String} {v : String} {op : Operator}
  {a b e l r s u : Expr} {A : Arithmetic Float}

theorem rename_expandLiteral (value : Float) :
    (expandLiteral value).rename p = expandLiteral value := by
  unfold expandLiteral
  split_ifs <;> rfl

theorem rename_expand (e : Expr) : (e.rename p).expand = e.expand.rename p := by
  induction e with
  | literal value => exact (rename_expandLiteral value).symm
  | var | constant => rfl
  | binary op l r left right => simp [expand, left, right]
  | apply f u argument => rw [rename_apply, expand, expand, argument, f.rename_expand]

theorem rename_writeOut (e : Expr) : (e.rename p).writeOut = e.writeOut.rename p := by
  induction e with
  | literal value => exact (rename_expandLiteral value).symm
  | var | constant => rfl
  | binary op l r left right => simp [writeOut, left, right]
  | apply f u argument => rw [rename_apply, writeOut, writeOut, argument, f.rename_writeOut]

theorem occurrences_writeOut (e : Expr) : e.writeOut.occurrences = e.occurrences := by
  induction e with
  | literal value => exact occurrences_expandLiteral value
  | var | constant => rfl
  | binary op l r left right => simp [writeOut, occurrences, left, right]
  | apply f u argument => rw [writeOut, f.occurrences_writeOut, argument, occurrences]

/-! ## Names that are told apart -/

theorem mentions_rename (injective : Set.InjOn p {name | name ∈ names}) (known : v ∈ names)
    (inside : e.UsesOnly names) : (e.rename p).mentions (p v) = e.mentions v := by
  induction e with
  | literal | constant => rfl
  | var name =>
    have occurs : name ∈ names := inside (List.mem_singleton_self name)
    simp [rename, mentions, injective.eq_iff occurs known]
  | binary op l r left right =>
    obtain ⟨insideLeft, insideRight⟩ := usesOnly_binary.1 inside
    simp [mentions, left insideLeft, right insideRight]
  | apply f u argument => exact argument inside

theorem rename_injOn (injective : Set.InjOn p {name | name ∈ names}) (inside : e.UsesOnly names)
    (inside' : s.UsesOnly names) (same : e.rename p = s.rename p) : e = s := by
  induction e generalizing s with
  | literal | constant => cases s <;> simp_all [rename]
  | var name =>
    cases s with
    | var other =>
      have names := injective (inside (List.mem_singleton_self name))
        (inside' (List.mem_singleton_self other)) (var.inj same)
      rw [names]
    | literal | constant | binary | apply => cases same
  | binary op l r left right =>
    cases s with
    | binary op' l' r' =>
      obtain ⟨insideLeft, insideRight⟩ := usesOnly_binary.1 inside
      obtain ⟨insideLeft', insideRight'⟩ := usesOnly_binary.1 inside'
      obtain ⟨rfl, sameLeft, sameRight⟩ := binary.inj same
      rw [left insideLeft insideLeft' sameLeft, right insideRight insideRight' sameRight]
    | literal | var | constant | apply => cases same
  | apply f u argument =>
    cases s with
    | apply f' u' =>
      obtain ⟨rfl, sameArgument⟩ := apply.inj same
      rw [argument inside (usesOnly_apply.1 inside') sameArgument]
    | literal | var | constant | binary => cases same

/-- Renaming commutes with differentiating. -/
theorem derivative_rename (injective : Set.InjOn p {name | name ∈ names}) (known : v ∈ names)
    (inside : e.UsesOnly names) : (e.rename p).derivative (p v) = (e.derivative v).rename p := by
  induction e with
  | literal | constant => rw [derivative_of_free rfl, derivative_of_free rfl, rename_zero]
  | var name =>
    have occurs : name ∈ names := inside (List.mem_singleton_self name)
    simp [derivative_eq_structuralDerivative, rename, structuralDerivative, apply_ite (rename p),
      injective.eq_iff occurs known]
  | binary op l r left right =>
    obtain ⟨insideLeft, insideRight⟩ := usesOnly_binary.1 inside
    rw [rename_binary, derivative_binary, derivative_binary, op.rename_derivativeRule,
      mentions_rename injective known insideLeft, mentions_rename injective known insideRight,
      left insideLeft, right insideRight]
  | apply f u argument =>
    have mentioned := mentions_rename injective known (e := u) inside
    cases occurs : u.mentions v with
    | true =>
      rw [rename_apply, derivative_apply f (mentioned.trans occurs), derivative_apply f occurs,
        argument inside, rename_binary, f.rename_outerDerivative]
    | false =>
      have free : (apply f u).mentions v = false := occurs
      rw [derivative_of_free free,
        derivative_of_free (e := (apply f u).rename p) (mentioned.trans occurs), rename_zero]

end Expr

/-! ## Names that are read as variables -/

theorem IsVariableName.isLettered {name : String} (readable : IsVariableName name) :
    IsLettered name := by
  refine ⟨readable.letters, ?_⟩
  rintro c rfl
  have reads := readable.reads
  cases c <;> exact absurd reads (by decide)

/-- The names are read as variables before and after renaming, and are told apart. -/
structure Renames (p : String → String) (names : List String) : Prop where
  /-- Different names become different names. -/
  injective : Set.InjOn p {name | name ∈ names}
  /-- The names are read as variables. -/
  readable : ∀ name ∈ names, IsVariableName name
  /-- The names that they become are read as variables. -/
  renamed : ∀ name ∈ names, IsVariableName (p name)

namespace Renames

variable {p : String → String} {names : List String} {e : Expr}

theorem named (renames : Renames p names) (inside : e.UsesOnly names) : e.Named :=
  fun name occurs => renames.readable name (inside occurs)

theorem named_rename (renames : Renames p names) (inside : e.UsesOnly names) :
    (e.rename p).Named := by
  intro name occurs
  rw [Expr.occurrences_rename] at occurs
  obtain ⟨old, occursOld, rfl⟩ := List.mem_map.1 occurs
  exact renames.renamed old (inside occursOld)

end Renames

namespace Expr

variable {p : String → String} {names : List String} {v : String} {op : Operator}
  {a b e l r s u : Expr} {A : Arithmetic Float}

theorem Named.lettered (named : e.Named) : e.Lettered :=
  fun name occurs => (named name occurs).isLettered

theorem sameAs_iff_writeOut_eq (lettered : a.Lettered) (lettered' : b.Lettered) :
    a.sameAs b = true ↔ a.writeOut = b.writeOut := by
  constructor
  · exact writeOut_eq_of_sameAs lettered lettered'
  · intro same
    rw [sameAs, ← canonical_writeOut a, ← canonical_writeOut b, same, beq_self_eq_true]

/-- Trees have the same text after renaming if they had it before, and only then. -/
theorem sameAs_rename (renames : Renames p names) (inside : a.UsesOnly names)
    (inside' : b.UsesOnly names) : (a.rename p).sameAs (b.rename p) = a.sameAs b := by
  have writtenOut : a.writeOut.UsesOnly names := by rwa [UsesOnly, occurrences_writeOut]
  have writtenOut' : b.writeOut.UsesOnly names := by rwa [UsesOnly, occurrences_writeOut]
  rw [Bool.eq_iff_iff, sameAs_iff_writeOut_eq (renames.named_rename inside).lettered
    (renames.named_rename inside').lettered, rename_writeOut, rename_writeOut,
    sameAs_iff_writeOut_eq (renames.named inside).lettered (renames.named inside').lettered]
  exact ⟨rename_injOn renames.injective writtenOut writtenOut', congrArg (rename p)⟩

/-! ## Reducing -/

theorem UsesOnly.expand (inside : e.UsesOnly names) : e.expand.UsesOnly names :=
  List.Subset.trans (occurrences_expand e) inside

theorem UsesOnly.reduce (inside : e.UsesOnly names) (A : Arithmetic Float) :
    (e.reduce A).UsesOnly names :=
  List.Subset.trans (occurrences_reduce A e) inside

theorem folded?_rename :
    folded? A op (l.rename p) (r.rename p) = (folded? A op l r).map (rename p) := by
  cases l with
  | literal x =>
    cases r with
    | literal y =>
      simp only [rename_literal, folded?]
      split <;> rfl
    | var | constant | binary | apply => rfl
  | var | constant | binary | apply => rfl

theorem rename_applyLaw (same : (l.rename p).sameAs (r.rename p) = l.sameAs r) :
    (applyLaw op l r).rename p = applyLaw op (l.rename p) (r.rename p) := by
  cases op <;> simp [applyLaw, apply_ite (rename p), same]

theorem rename_reduceRoot (same : (l.rename p).sameAs (r.rename p) = l.sameAs r) :
    (reduceRoot A op l r).rename p = reduceRoot A op (l.rename p) (r.rename p) := by
  rw [reduceRoot, reduceRoot, folded?_rename, ← rename_applyLaw same, Option.getD_map]

/-- Renaming commutes with reducing. -/
theorem reduce_rename (renames : Renames p names) (inside : e.UsesOnly names) :
    (e.rename p).reduce A = (e.reduce A).rename p := by
  induction e with
  | literal | var | constant => rfl
  | binary op l r left right =>
    obtain ⟨insideLeft, insideRight⟩ := usesOnly_binary.1 inside
    have same := sameAs_rename renames (insideLeft.reduce A) (insideRight.reduce A)
    rw [rename_binary, reduce_binary, reduce_binary, left insideLeft, right insideRight,
      rename_reduceRoot same]
  | apply f u argument => rw [rename_apply, reduce_apply, reduce_apply, argument inside, rename_apply]

/-! ## Simplifying -/

/-- Renaming commutes with the algebraic simplifier. -/
theorem simplify_algebraic_rename (renames : Renames p names) (inside : e.UsesOnly names) :
    (e.rename p).simplify .algebraic = .ok s ↔
      ∃ answer, e.simplify .algebraic = .ok answer ∧ s = answer.rename p := by
  rw [simplify_algebraic_eq_ok_iff (renames.named_rename inside), cost_rename, rename_expand,
    reduce_rename renames inside.expand, cost_rename]
  simp only [simplify_algebraic_eq_ok_iff (renames.named inside)]
  constructor
  · rintro ⟨enough, enough', rfl⟩
    exact ⟨_, ⟨enough, enough', rfl⟩, rfl⟩
  · rintro ⟨_, ⟨enough, enough', rfl⟩, rfl⟩
    exact ⟨enough, enough', rfl⟩

theorem UsesOnly.simplify_algebraic (inside : e.UsesOnly names) (named : e.Named)
    (answered : e.simplify .algebraic = .ok s) : s.UsesOnly names := by
  obtain ⟨-, -, rfl⟩ := (simplify_algebraic_eq_ok_iff named).1 answered
  exact inside.expand.reduce .machine

/-! ## Slopes -/

theorem mainVariable?_eq (e : Expr) : e.mainVariable? = e.occurrences.head? := by
  rw [mainVariable?, variableNames]
  cases e.occurrences with
  | nil => rfl
  | cons name others => rfl

theorem mainVariable?_rename (e : Expr) : (e.rename p).mainVariable? = e.mainVariable?.map p := by
  rw [mainVariable?_eq, mainVariable?_eq, occurrences_rename, List.head?_map]

/-- The slope before it is simplified. -/
def rawSlope (e : Expr) : Expr :=
  match e.mainVariable? with
  | some v => e.derivative v
  | none => zero

theorem slope_eq (simplifier : Simplifier) (e : Expr) :
    e.slope simplifier = e.rawSlope.simplify simplifier := by
  rw [slope, rawSlope]
  cases e.mainVariable? with
  | none => rfl
  | some v => rfl

theorem usesOnly_rawSlope (e : Expr) : e.rawSlope.UsesOnly e.occurrences := by
  rw [rawSlope]
  cases e.mainVariable? with
  | none => exact usesOnly_zero
  | some v => exact occurrences_derivative v e

theorem rawSlope_rename (injective : Set.InjOn p {name | name ∈ e.occurrences}) :
    (e.rename p).rawSlope = e.rawSlope.rename p := by
  rw [rawSlope, rawSlope, mainVariable?_rename]
  cases main : e.mainVariable? with
  | none => rfl
  | some v =>
    have known : v ∈ e.occurrences := by
      rw [mainVariable?_eq] at main
      exact List.mem_of_mem_head? main
    exact derivative_rename injective known (List.Subset.refl e.occurrences)

/-! ## The result -/

/-- The names of variables do not matter to derivatives, reduced expressions and slopes. -/
theorem rename_commutes (renames : Renames p e.occurrences) (occurs : v ∈ e.occurrences) :
    (e.rename p).derivative (p v) = (e.derivative v).rename p ∧
    (e.rename p).reduce .machine = (e.reduce .machine).rename p ∧
    (∀ s : Expr, s.UsesOnly e.occurrences →
      ((e.rename p).slope .algebraic = .ok (s.rename p) ↔ e.slope .algebraic = .ok s)) ∧
    ∀ s : Expr, (e.rename p).slope .algebraic = .ok s ↔
      ∃ answer : Expr, answer.UsesOnly e.occurrences ∧ e.slope .algebraic = .ok answer ∧
        s = answer.rename p := by
  have inside : e.UsesOnly e.occurrences := List.Subset.refl _
  have raw := usesOnly_rawSlope e
  have answers {s : Expr} : (e.rename p).slope .algebraic = .ok s ↔
      ∃ answer : Expr, answer.UsesOnly e.occurrences ∧ e.slope .algebraic = .ok answer ∧
        s = answer.rename p := by
    rw [slope_eq, slope_eq, rawSlope_rename renames.injective,
      simplify_algebraic_rename renames raw]
    exact exists_congr fun answer =>
      ⟨fun ⟨answered, same⟩ => ⟨raw.simplify_algebraic (renames.named raw) answered, answered, same⟩,
        fun ⟨_, answered, same⟩ => ⟨answered, same⟩⟩
  refine ⟨derivative_rename renames.injective occurs inside, reduce_rename renames inside, ?_,
    fun s => answers⟩
  intro s inside'
  rw [answers]
  constructor
  · rintro ⟨answer, known, answered, same⟩
    rwa [rename_injOn renames.injective inside' known same]
  · intro answered
    exact ⟨s, inside', answered, rfl⟩

/-- Two variables in each other's place, with a difference of the same text on both sides. -/
theorem rename_commutes_swap :
    let p := Equiv.swap "x" "y"
    let product := times (var "x") (apply .cot (var "y"))
    let e := plus (minus product product) (times (var "x") (var "y"))
    Renames p e.occurrences ∧ "x" ∈ e.occurrences ∧ (var "y").UsesOnly e.occurrences ∧
      e.slope .algebraic = .ok (var "y") ∧
      (e.rename p).derivative "y" = (e.derivative "x").rename p ∧
      (e.rename p).slope .algebraic = .ok (var "x") := by
  intro p product e
  have renames : Renames p e.occurrences :=
    ⟨p.injective.injOn, by decide, by decide⟩
  have occurs : "x" ∈ e.occurrences := by decide
  have known : (var "y").UsesOnly e.occurrences := by simp [UsesOnly, occurrences, e, product]
  have answer : e.slope .algebraic = .ok (var "y") := by
    have derivative : e.derivative "x" = plus
        (minus (times (apply .cot (var "y")) one) (times (apply .cot (var "y")) one))
        (times (var "y") one) := by cbv
    have named : (e.derivative "x").Named := renames.named (occurrences_derivative "x" e)
    change (e.derivative "x").simplify .algebraic = _
    rw [simplify_algebraic_eq_ok_iff named, derivative]
    exact ⟨by decide +kernel, by decide +kernel, by decide +kernel⟩
  obtain ⟨derivatives, -, slopes, -⟩ := rename_commutes renames occurs
  exact ⟨renames, occurs, known, answer, derivatives, (slopes (var "y") known).2 answer⟩

end Expr

end Formulae
