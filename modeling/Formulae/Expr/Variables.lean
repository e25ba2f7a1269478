import Formulae.Expr.Basic

/-!
# The variables of an expression

`occurrences` lists every occurrence of a variable, from left to right.  `variableNames` keeps the
first occurrence of each name, and `mentions` asks for one name.
-/

namespace Formulae

/-- The list without repetitions, each element at the place of its first occurrence. -/
def distinct {α : Type} [DecidableEq α] : List α → List α
  | [] => []
  | a :: as => a :: (distinct as).filter (· ≠ a)

theorem mem_distinct {α : Type} [DecidableEq α] {a : α} {as : List α} :
    a ∈ distinct as ↔ a ∈ as := by
  induction as with
  | nil => simp [distinct]
  | cons b bs ih =>
    by_cases same : a = b
    · simp [distinct, same]
    · simp [distinct, same, ih]

theorem nodup_distinct {α : Type} [DecidableEq α] (as : List α) : (distinct as).Nodup := by
  induction as with
  | nil => simp [distinct]
  | cons b bs ih =>
    simp only [distinct, List.nodup_cons]
    exact ⟨by simp, ih.filter _⟩

namespace Expr

/-- The names of the variables at the leaves, from left to right. -/
def occurrences : Expr → List String
  | literal _ => []
  | var name => [name]
  | constant _ => []
  | binary _ l r => l.occurrences ++ r.occurrences
  | apply _ u => u.occurrences

/-- The names of the variables, in the order of their first occurrences. -/
def variableNames (e : Expr) : List String := distinct e.occurrences

/-- Whether a variable occurs. -/
def mentions (name : String) : Expr → Bool
  | literal _ => false
  | var own => own == name
  | constant _ => false
  | binary _ l r => l.mentions name || r.mentions name
  | apply _ u => u.mentions name

/-- The variable that a formula of one variable is about, the first one. -/
def mainVariable? (e : Expr) : Option String := e.variableNames.head?

end Expr

end Formulae
