import Mathlib.Data.Set.Card
import Formulae.Proofs.Formula.Steps

/-!
# What the value of a formula depends on

Three recursions speak of the variables of an expression.  `occurrences` collects them, `mentions`
asks for one of them, and `eval` looks their values up and takes zero for what has none.  They speak of
the same variables.

* The list of names has the mentioned names, each once (`mem_variableNames_iff`).
* It is in the order of their first occurrences (`pairwise_variableNames`).  Where a name occurs is said
  by `OccursAt` and not by the collected list.  A place is the way to it from the root, and from left
  to right the places are in lexicographic order.
* Two ways to give values to these names lead to the same result (`eval_congr`).

A limit on the variables is therefore a limit on the mentioned names (`readLimited_eq`).
-/

namespace Formulae

/-- The elements of two lists in a row: those of the second that the first one does not have come
behind those of the first. -/
theorem distinct_append {α : Type} [DecidableEq α] (as bs : List α) :
    distinct (as ++ bs) = distinct as ++ (distinct bs).filter (· ∉ as) := by
  induction as with
  | nil => simp [distinct]
  | cons a as induction =>
    rw [List.cons_append, distinct, induction, distinct, List.filter_append, List.cons_append,
      List.filter_filter]
    simp only [List.mem_cons, not_or, Bool.decide_and]

namespace Expr

/-! ## Occurrences -/

/-- A variable occurs at a place, which is the way to it from the root: `0` leads to the left operand
or to the argument, and `1` to the right operand. -/
inductive OccursAt (name : String) : Expr → List Nat → Prop where
  | var : OccursAt name (var name) []
  | left {op : Operator} {l r : Expr} {place : List Nat} :
      OccursAt name l place → OccursAt name (binary op l r) (0 :: place)
  | right {op : Operator} {l r : Expr} {place : List Nat} :
      OccursAt name r place → OccursAt name (binary op l r) (1 :: place)
  | argument {f : Function} {u : Expr} {place : List Nat} :
      OccursAt name u place → OccursAt name (apply f u) (0 :: place)

/-- One variable occurs somewhere before every occurrence of another. -/
def FirstBefore (e : Expr) (a b : String) : Prop :=
  ∃ place, e.OccursAt a place ∧ ∀ later, e.OccursAt b later → place < later

/-- The names that an expression mentions. -/
def mentioned (e : Expr) : Set String := {name | e.mentions name = true}

variable {e l r u : Expr} {op : Operator} {f : Function} {name a b : String}

theorem mem_occurrences_iff : name ∈ e.occurrences ↔ e.mentions name = true := by
  induction e with
  | literal | constant => simp [occurrences, mentions]
  | var own => rw [occurrences, mentions, List.mem_singleton, beq_iff_eq, eq_comm]
  | binary op l r left right => simp [occurrences, mentions, left, right]
  | apply f u argument => exact argument

theorem exists_occursAt_iff : (∃ place, e.OccursAt name place) ↔ e.mentions name = true := by
  induction e with
  | literal | constant =>
    constructor
    · rintro ⟨place, occurs⟩
      cases occurs
    · intro occurs
      cases occurs
  | var own =>
    constructor
    · rintro ⟨place, occurs⟩
      cases occurs
      exact beq_self_eq_true name
    · intro occurs
      obtain rfl := eq_of_beq occurs
      exact ⟨[], .var⟩
  | binary op l r left right =>
    rw [mentions, Bool.or_eq_true, ← left, ← right]
    constructor
    · rintro ⟨place, occurs⟩
      cases occurs with
      | left occurs => exact .inl ⟨_, occurs⟩
      | right occurs => exact .inr ⟨_, occurs⟩
    · rintro (⟨place, occurs⟩ | ⟨place, occurs⟩)
      · exact ⟨_, occurs.left⟩
      · exact ⟨_, occurs.right⟩
  | apply f u argument =>
    rw [mentions, ← argument]
    constructor
    · rintro ⟨place, occurs⟩
      cases occurs with
      | argument occurs => exact ⟨_, occurs⟩
    · rintro ⟨place, occurs⟩
      exact ⟨_, occurs.argument⟩

/-! ## The order of first occurrences -/

theorem FirstBefore.left (before : l.FirstBefore a b) : (binary op l r).FirstBefore a b := by
  obtain ⟨place, occurs, first⟩ := before
  refine ⟨_, occurs.left, ?_⟩
  intro later other
  cases other with
  | left other => exact List.cons_lt_cons_iff.2 (.inr ⟨rfl, first _ other⟩)
  | right => exact List.cons_lt_cons_iff.2 (.inl Nat.zero_lt_one)

/-- A name of the left operand is before one that only the right operand has. -/
theorem firstBefore_across (occurs : l.mentions a = true) (free : ¬ l.mentions b = true) :
    (binary op l r).FirstBefore a b := by
  obtain ⟨place, found⟩ := exists_occursAt_iff.2 occurs
  refine ⟨_, found.left, ?_⟩
  intro later other
  cases other with
  | left other => exact absurd (exists_occursAt_iff.1 ⟨_, other⟩) free
  | right => exact List.cons_lt_cons_iff.2 (.inl Nat.zero_lt_one)

theorem FirstBefore.right (before : r.FirstBefore a b) (free : ¬ l.mentions b = true) :
    (binary op l r).FirstBefore a b := by
  obtain ⟨place, occurs, first⟩ := before
  refine ⟨_, occurs.right, ?_⟩
  intro later other
  cases other with
  | left other => exact absurd (exists_occursAt_iff.1 ⟨_, other⟩) free
  | right other => exact List.cons_lt_cons_iff.2 (.inr ⟨rfl, first _ other⟩)

theorem FirstBefore.argument (before : u.FirstBefore a b) : (apply f u).FirstBefore a b := by
  obtain ⟨place, occurs, first⟩ := before
  refine ⟨_, occurs.argument, ?_⟩
  intro later other
  cases other with
  | argument other => exact List.cons_lt_cons_iff.2 (.inr ⟨rfl, first _ other⟩)

/-! ## The list of names -/

theorem nodup_variableNames (e : Expr) : e.variableNames.Nodup := nodup_distinct e.occurrences

theorem mem_variableNames_iff : name ∈ e.variableNames ↔ e.mentions name = true :=
  mem_distinct.trans mem_occurrences_iff

theorem variableNames_binary :
    (binary op l r).variableNames =
      l.variableNames ++ r.variableNames.filter (· ∉ l.occurrences) :=
  distinct_append l.occurrences r.occurrences

theorem pairwise_variableNames (e : Expr) : e.variableNames.Pairwise e.FirstBefore := by
  induction e with
  | literal | constant => exact .nil
  | var name => exact List.pairwise_singleton _ name
  | binary op l r left right =>
    have new {name : String} (among : name ∈ r.variableNames.filter (· ∉ l.occurrences)) :
        ¬ l.mentions name = true := by
      rw [← mem_occurrences_iff]
      exact of_decide_eq_true (List.mem_filter.1 among).2
    rw [variableNames_binary, List.pairwise_append]
    refine ⟨left.imp .left, ?_, ?_⟩
    · refine (right.filter _).imp_of_mem fun _ among before => ?_
      exact before.right (new among)
    · intro a occurs b among
      exact firstBefore_across (mem_variableNames_iff.1 occurs) (new among)
  | apply f u argument => exact argument.imp .argument

theorem ncard_mentioned (e : Expr) : e.mentioned.ncard = e.variableNames.length := by
  have names : e.mentioned = (e.variableNames.toFinset : Set String) := by
    ext name
    simp [mentioned, mem_variableNames_iff]
  rw [names, Set.ncard_coe_finset, List.toFinset_card_of_nodup e.nodup_variableNames]

/-! ## Values -/

/-- Only the values of the mentioned names matter, in any arithmetic. -/
theorem eval_congr {K : Type} (A : Arithmetic K) {valueOf valueOf' : String → K}
    (agree : ∀ name, e.mentions name = true → valueOf name = valueOf' name) :
    e.eval A valueOf = e.eval A valueOf' := by
  induction e with
  | literal | constant => rfl
  | var name => exact agree name (beq_self_eq_true name)
  | binary op l r left right =>
    have inLeft := left fun name occurs => agree name (by simp [mentions, occurs])
    have inRight := right fun name occurs => agree name (by simp [mentions, occurs])
    rw [eval, eval, inLeft, inRight]
  | apply f u argument => rw [eval, eval, argument agree]

end Expr

/-! ## Limits -/

namespace Formula

/-- A formula is read if few enough names are mentioned in it. -/
theorem readLimited_eq (allowed : Nat) (source : String) :
    readLimited allowed source =
      match parse source with
      | .error cause => .error (.parse cause)
      | .ok e =>
        if e.mentioned.ncard ≤ allowed then .ok ⟨source, e, none⟩
        else .error (.tooManyVariables e.mentioned.ncard allowed
          (", ".intercalate e.variableNames)) := by
  rw [readLimited, read]
  cases parse source with
  | error cause => rfl
  | ok e =>
    rw [ok_bind]
    dsimp only [variableNames]
    rw [e.ncard_mentioned]
    by_cases few : e.variableNames.length ≤ allowed
    · rw [if_pos few, if_neg (Nat.not_lt.2 few)]
    · rw [if_neg few, if_pos (Nat.not_le.1 few)]

end Formula

/-- The value of a formula depends on its listed variables only, and a limit on the variables is one on
the list.

* Each name is listed once, in the order of first occurrences, and exactly the mentioned names are.
* Bindings that agree on the listed names give the same value.
* A text is accepted if it spells an expression with few enough names.  If there are more, the error
  has their number and the names in order. -/
theorem value_depends_on_variableNames :
    (∀ e : Expr, e.variableNames.Nodup ∧ e.variableNames.Pairwise e.FirstBefore ∧
      (∀ name, name ∈ e.variableNames ↔ e.mentions name = true) ∧
      ∀ b b' : Bindings, (∀ name ∈ e.variableNames, b.value name = b'.value name) →
        e.value b = e.value b') ∧
    ∀ (allowed : Nat) (source : String),
      (∀ f, Formula.readLimited allowed source = .ok f ↔
        ∃ e, parse source = .ok e ∧ e.mentioned.ncard ≤ allowed ∧ f = ⟨source, e, none⟩) ∧
      ∀ e, parse source = .ok e → allowed < e.mentioned.ncard →
        Formula.readLimited allowed source = .error (.tooManyVariables e.mentioned.ncard allowed
          (", ".intercalate e.variableNames)) := by
  constructor
  · intro e
    refine ⟨e.nodup_variableNames, e.pairwise_variableNames, fun _ => Expr.mem_variableNames_iff, ?_⟩
    intro b b' agree
    exact Expr.eval_congr .machine fun name occurs => agree name (Expr.mem_variableNames_iff.2 occurs)
  · intro allowed source
    rw [Formula.readLimited_eq]
    constructor
    · intro f
      cases parse source with
      | error cause => simp
      | ok e =>
        by_cases few : e.mentioned.ncard ≤ allowed
        · simp [few, eq_comm]
        · simp [few]
    · intro e accepted many
      rw [accepted]
      exact if_neg (Nat.not_le.2 many)

/-- A name that is not listed, and a listed one that is not bound or bound to zero.  With a limit of one
the formula is refused. -/
theorem value_depends_on_variableNames_two :
    let e := Expr.plus (.times (.var "y") (.var "x")) (.apply .cos (.var "y"))
    let b := Bindings.ofList [("x", 2), ("y", 0)]
    let b' := Bindings.ofList [("w", 1), ("x", 2)]
    (∀ name ∈ e.variableNames, b.value name = b'.value name) ∧ e.value b = e.value b' ∧
      parse "y x + cos y" = .ok e ∧ 1 < e.mentioned.ncard ∧
      Formula.readLimited 1 "y x + cos y" = .error (.tooManyVariables 2 1 "y, x") := by
  intro e b b'
  obtain ⟨onExpressions, onLimits⟩ := value_depends_on_variableNames
  have agree : ∀ name ∈ e.variableNames, b.value name = b'.value name := by decide
  have accepted : parse "y x + cos y" = .ok e := by decide +kernel
  have count : e.mentioned.ncard = 2 := e.ncard_mentioned
  have many : 1 < e.mentioned.ncard := by
    rw [count]
    exact Nat.one_lt_two
  refine ⟨agree, (onExpressions e).2.2.2 b b' agree, accepted, many, ?_⟩
  have refused := (onLimits 1 "y x + cos y").2 e accepted many
  rw [count] at refused
  exact refused

end Formulae
