import Formulae.Proofs.Reduction.FixedPoint

/-!
# The size of reduced trees

No law puts in more nodes than it takes away (`Law.nodes_le`).  Only a sign is put in at all, and it
stands for a literal `0` or `-1` that was an operand.  So a reduced tree has no more nodes than the
tree that it comes from (`nodes_reduce_le`).

Together with `reduce_reduce`, one pass of reduction is all that there is to do
(`reduce_normalizes`).  This holds in every arithmetic, also in one whose results are never finite,
so that no two literals are ever replaced by their result.
-/

namespace Formulae.Expr

/-- The number of operations, applications and leaves. -/
def nodes : Expr → Nat
  | binary _ l r => l.nodes + r.nodes + 1
  | apply _ u => u.nodes + 1
  | _ => 1

theorem nodes_pos (e : Expr) : 0 < e.nodes := by
  cases e with
  | literal | var | constant => exact Nat.one_pos
  | binary | apply => exact Nat.succ_pos _

variable {A : Arithmetic Float} {op : Operator} {e l r : Expr}

/-- A sign is an operation and its factor. -/
theorem nodes_negate_le (u : Expr) : u.negate.nodes ≤ u.nodes + 2 := by
  cases u with
  | literal x => exact Nat.le_add_right 1 2
  | var | constant | binary | apply =>
    simp only [negate, negativeOne, nodes]
    omega

theorem nodes_negateReduced_le (u : Expr) : u.negateReduced.nodes ≤ u.nodes + 2 := by
  rcases negateReduced_cases u with ⟨l, r, rfl, -, negative⟩ | negative
  · rw [negative, nodes]
    omega
  · rw [negative]
    exact nodes_negate_le u

/-- No law makes an operation longer. -/
theorem Law.nodes_le (law : Law A op l r e) : e.nodes ≤ (binary op l r).nodes := by
  have left := l.nodes_pos
  have right := r.nodes_pos
  have operands : (binary op l r).nodes = l.nodes + r.nodes + 1 := rfl
  cases law with
  | folded | minus_self | zero_times | times_zero | zero_divide | power_zero | one_power =>
    exact Nat.le_add_left 1 _
  | plus_zero | minus_zero | times_one | divide_one | power_one => omega
  | zero_plus | one_times => omega
  | zero_minus | negativeOne_times =>
    have negative := nodes_negateReduced_le r
    omega
  | times_negativeOne =>
    have negative := nodes_negateReduced_le l
    omega
  | kept => exact Nat.le_refl _

theorem nodes_reduce_le (A : Arithmetic Float) (e : Expr) : (e.reduce A).nodes ≤ e.nodes := by
  induction e with
  | literal | var | constant => exact Nat.le_refl _
  | binary op l r left right =>
    have law := (law_reduceRoot A op (l.reduce A) (r.reduce A)).nodes_le
    rw [reduce_binary]
    refine Nat.le_trans law ?_
    simp only [nodes]
    omega
  | apply f u argument => exact Nat.succ_le_succ argument

/-- A reduced tree is not changed by reducing it, and has no more nodes than the tree. -/
theorem reduce_normalizes (A : Arithmetic Float) (e : Expr) :
    (e.reduce A).reduce A = e.reduce A ∧ (e.reduce A).nodes ≤ e.nodes :=
  ⟨reduce_reduce A e, nodes_reduce_le A e⟩

end Formulae.Expr
