import Formulae.Arithmetic.Machine
import Formulae.Expr.Basic

/-!
# The value of an expression

`eval` computes an expression in an arithmetic, with a value for every variable name.

`Bindings` are the values that a user gives: a list of names with floats, the latest first.  A
name that is bound twice has its latest value, and a name that is not bound has the value zero.
-/

namespace Formulae

/-- The value of an expression. -/
def Expr.eval {K : Type} (A : Arithmetic K) (valueOf : String → K) : Expr → K
  | .literal value => A.literal value
  | .var name => valueOf name
  | .constant c => A.constant c
  | .binary op l r => A.combine op (l.eval A valueOf) (r.eval A valueOf)
  | .apply f u => A.apply f (u.eval A valueOf)

/-- Values for variable names. -/
structure Bindings where
  /-- The names with their values, the latest first. -/
  entries : List (String × Float)

namespace Bindings

/-- No value for any name. -/
def empty : Bindings := ⟨[]⟩

/-- The bindings with one more value, which replaces an earlier one of the same name. -/
def insert (b : Bindings) (name : String) (value : Float) : Bindings :=
  ⟨(name, value) :: b.entries⟩

/-- The bindings made by inserting the pairs of a list one after the other. -/
def ofList (pairs : List (String × Float)) : Bindings :=
  pairs.foldl (fun b pair => b.insert pair.1 pair.2) empty

/-- The value of a name, zero if it has none. -/
def value (b : Bindings) (name : String) : Float := (b.entries.lookup name).getD 0

theorem value_insert (b : Bindings) (bound name : String) (v : Float) :
    (b.insert bound v).value name = if name = bound then v else b.value name := by
  by_cases same : name = bound
  · simp [value, insert, same]
  · have differs : (name == bound) = false := by simp [same]
    simp [value, insert, List.lookup_cons, same, differs]

end Bindings

/-- The float that an expression evaluates to. -/
def Expr.value (e : Expr) (b : Bindings) : Float := e.eval .machine b.value

end Formulae
