import Formulae.Expr.Derivative

/-!
# Differentiation by recursion on the parts

Two rules of `derivative` differentiate an expression that is no part of the given one: `b ^ -1` for
a quotient `a / b` by the variable, and `e ^ (b * ln a)` for a power `a ^ b` with the variable on
both sides.  The rules that these take in turn are always the same ones.  So the derivative of an
operation depends on the derivatives of its operands alone (`derivative_binary`, by the table
`Operator.derivativeRule`), and a recursion on the parts gives the same tree
(`structuralDerivative`).

That the rules come to an end is a statement about calls.  `derivativeWithin` works like
`derivative`, but gives up when more than a given number of calls would be open at once.  It does not
give up when the number is above `burden` (`derivativeWithin_of_burden_lt`), because each call is
about an expression of a smaller burden.
-/

namespace Formulae

/-- The derivative of an operation, from the derivatives `a'` and `b'` of its operands. -/
def Operator.derivativeRule (op : Operator) (leftMentions rightMentions : Bool)
    (a b a' b' : Expr) : Expr :=
  match leftMentions, rightMentions, op with
  | false, false, _ => .zero
  | true, false, .plus => a'
  | false, true, .plus => b'
  | true, true, .plus => .plus a' b'
  | true, false, .minus => a'
  | false, true, .minus => .negate b'
  | true, true, .minus => .minus a' b'
  | true, false, .times => .times b a'
  | false, true, .times => .times a b'
  | true, true, .times => .plus (.times a' b) (.times a b')
  | true, false, .divide => .divide a' b
  | false, true, .divide => .times a (.times (.times .negativeOne (.power b (.literal (-2)))) b')
  | true, true, .divide => .divide (.minus (.times a' b) (.times a b')) (.power b .two)
  | true, false, .power =>
    if b.isLiteral 1 then a' else .times (.times b (.power a b.lowered)) a'
  | false, true, .power =>
    if a = .constant .euler then .times (.power a b) b'
    else .times (.times (.power a b) (.apply .ln a)) b'
  | true, true, .power =>
    .times (.power (.constant .euler) (.times b (.apply .ln a)))
      (.plus (.times b' (.apply .ln a)) (.times b (.times (.divide .one a) a')))

namespace Expr

/-- The derivative by recursion on the parts. -/
def structuralDerivative (v : String) : Expr → Expr
  | literal _ => zero
  | var name => if name = v then one else zero
  | constant _ => zero
  | binary op a b =>
    op.derivativeRule (a.mentions v) (b.mentions v) a b (a.structuralDerivative v)
      (b.structuralDerivative v)
  | apply f u =>
    if u.mentions v then times (f.outerDerivative u) (u.structuralDerivative v) else zero

/-- The derivative, unless more than `n` calls would be open at once. -/
def derivativeWithin (v : String) : Nat → Expr → Option Expr
  | 0, _ => none
  | n + 1, e =>
    let d := derivativeWithin v n
    if e.mentions v then
      match e with
      | literal _ => some zero
      | constant _ => some zero
      | var _ => some one
      | apply f u => return times (f.outerDerivative u) (← d u)
      | binary op a b =>
        match a.mentions v, b.mentions v, op with
        | _, false, .plus => d a
        | false, true, .plus => d b
        | true, true, .plus => return plus (← d a) (← d b)
        | _, false, .minus => d a
        | false, true, .minus => return negate (← d b)
        | true, true, .minus => return minus (← d a) (← d b)
        | _, false, .times => return times b (← d a)
        | false, true, .times => return times a (← d b)
        | true, true, .times => return plus (times (← d a) b) (times a (← d b))
        | _, false, .divide => return divide (← d a) b
        | false, true, .divide => return times a (← d (power b negativeOne))
        | true, true, .divide =>
          return divide (minus (times (← d a) b) (times a (← d b))) (power b two)
        | _, false, .power =>
          if b.isLiteral 1 then d a else return times (times b (power a b.lowered)) (← d a)
        | false, true, .power =>
          if a = constant .euler then return times (power a b) (← d b)
          else return times (times (power a b) (apply .ln a)) (← d b)
        | true, true, .power => d (power (constant .euler) (times b (apply .ln a)))
    else some zero

variable {v : String} {op : Operator} {a b e u : Expr}

/-! ## Single rules -/

theorem derivative_of_free (free : e.mentions v = false) : e.derivative v = zero := by
  rw [derivative, dif_neg (by simp [free])]

theorem derivative_var (v : String) : (var v).derivative v = one := by
  rw [derivative, dif_pos (by simp [mentions])]

theorem derivative_apply (f : Function) (occurs : u.mentions v = true) :
    (apply f u).derivative v = times (f.outerDerivative u) (u.derivative v) := by
  rw [derivative, dif_pos (by simp [mentions, occurs])]

theorem derivative_times (occurs : a.mentions v = true) (occurs' : b.mentions v = true) :
    (times a b).derivative v = plus (times (a.derivative v) b) (times a (b.derivative v)) := by
  rw [derivative, dif_pos (by simp [mentions, occurs])]
  dsimp only
  split <;> simp_all

/-- A power with the variable in the base alone. -/
theorem derivative_power_of_free (occurs : a.mentions v = true) (free : b.mentions v = false) :
    (power a b).derivative v =
      if b.isLiteral 1 then a.derivative v
      else times (times b (power a b.lowered)) (a.derivative v) := by
  rw [derivative, dif_pos (by simp [mentions, occurs])]
  dsimp only
  split <;> simp_all

theorem derivative_euler_power (occurs : b.mentions v = true) :
    (power (constant .euler) b).derivative v =
      times (power (constant .euler) b) (b.derivative v) := by
  rw [derivative, dif_pos (by simp [mentions, occurs])]
  dsimp only
  split <;> simp_all [mentions]

/-! ## The expressions put in place of others -/

theorem lowered_negativeOne : negativeOne.lowered = literal (-2) := by
  have difference : (-1 : Float) - 1 = -2 := by decide
  rw [negativeOne, lowered, difference]

/-- What is differentiated for a quotient by the variable. -/
theorem derivative_power_negativeOne (occurs : b.mentions v = true) :
    (power b negativeOne).derivative v =
      times (times negativeOne (power b (literal (-2)))) (b.derivative v) := by
  have several : negativeOne.isLiteral 1 = false := by decide
  rw [derivative_power_of_free occurs rfl, several, lowered_negativeOne]
  rfl

/-- What is differentiated for a power with the variable on both sides. -/
theorem derivative_exponential (occurs : a.mentions v = true) (occurs' : b.mentions v = true) :
    (power (constant .euler) (times b (apply .ln a))).derivative v =
      times (power (constant .euler) (times b (apply .ln a)))
        (plus (times (b.derivative v) (apply .ln a))
          (times b (times (divide one a) (a.derivative v)))) := by
  have logarithm : (apply .ln a).mentions v = true := occurs
  rw [derivative_euler_power (by simp [mentions, occurs']), derivative_times occurs' logarithm,
    derivative_apply .ln occurs]
  rfl

/-! ## Recursion on the parts -/

/-- The derivative of an operation is made of the derivatives of its operands. -/
theorem derivative_binary (op : Operator) (a b : Expr) :
    (binary op a b).derivative v =
      op.derivativeRule (a.mentions v) (b.mentions v) a b (a.derivative v) (b.derivative v) := by
  generalize shape : binary op a b = e
  fun_cases derivative v e with
  | case1 | case2 | case3 | case4 => cases shape
  | case15 =>
    cases shape
    simp_all [Operator.derivativeRule, derivative_power_negativeOne]
  | case21 =>
    cases shape
    simp_all [Operator.derivativeRule, derivative_exponential]
  | _ =>
    cases shape
    simp_all [Operator.derivativeRule, mentions]

theorem derivative_eq_structuralDerivative (v : String) (e : Expr) :
    e.derivative v = e.structuralDerivative v := by
  induction e with
  | literal | constant => exact derivative_of_free rfl
  | var name =>
    by_cases same : name = v
    · simp [same, structuralDerivative, derivative_var]
    · rw [derivative_of_free (by simp [mentions, same]), structuralDerivative, if_neg same]
  | binary op a b left right => rw [derivative_binary, left, right, structuralDerivative]
  | apply f u argument =>
    cases occurs : u.mentions v with
    | true => simp [structuralDerivative, occurs, derivative_apply, argument]
    | false => simp [structuralDerivative, occurs, derivative_of_free, mentions]

/-! ## The number of open calls -/

theorem burden_operands_lt (occurs : (binary op a b).mentions v = true) :
    a.burden v < (binary op a b).burden v ∧ b.burden v < (binary op a b).burden v := by
  have positive : 0 < operatorBurden op (a.mentions v) (b.mentions v) := by
    cases op with
    | power =>
      rw [operatorBurden]
      split <;> decide
    | plus | minus | times | divide => simp [operatorBurden]
  have weight : (binary op a b).burden v =
      a.burden v + b.burden v + operatorBurden op (a.mentions v) (b.mentions v) := by
    rw [burden, if_pos (by simpa [mentions] using occurs)]
  omega

theorem burden_power_negativeOne_lt (free : a.mentions v = false) (occurs : b.mentions v = true) :
    (power b negativeOne).burden v < (divide a b).burden v := by
  simp [burden, mentions, operatorBurden, negativeOne, free, occurs]
  omega

theorem burden_exponential_lt (occurs : a.mentions v = true) (occurs' : b.mentions v = true) :
    (power (constant .euler) (times b (apply .ln a))).burden v < (power a b).burden v := by
  simp [burden, mentions, operatorBurden, occurs, occurs']
  omega

/-- A limit above the burden is not exceeded. -/
theorem derivativeWithin_of_burden_lt {n : Nat} (enough : e.burden v < n) :
    e.derivativeWithin v n = some (e.derivative v) := by
  induction n generalizing e with
  | zero => exact absurd enough (Nat.not_lt_zero _)
  | succ n ih =>
    have smaller {e' : Expr} (less : e'.burden v < e.burden v) :
        e'.derivativeWithin v n = some (e'.derivative v) := ih (by omega)
    have operands {op : Operator} {a b : Expr} (shape : e = binary op a b)
        (occurs : e.mentions v = true) :
        a.derivativeWithin v n = some (a.derivative v) ∧
          b.derivativeWithin v n = some (b.derivative v) := by
      subst shape
      obtain ⟨left, right⟩ := burden_operands_lt occurs
      exact ⟨smaller left, smaller right⟩
    fun_cases derivative v e with
    | case1 | case2 | case3 | case22 => simp_all [derivativeWithin]
    | case4 f u occurs =>
      have argument : u.derivativeWithin v n = some (u.derivative v) :=
        smaller (by simp_all [burden, mentions])
      simp_all [derivativeWithin, mentions]
    | case15 a b _ left right =>
      have quotient := smaller (burden_power_negativeOne_lt left right)
      simp_all [derivativeWithin, mentions]
    | case21 a b _ left right =>
      have exponential := smaller (burden_exponential_lt left right)
      simp_all [derivativeWithin, mentions]
    | _ =>
      obtain ⟨left, right⟩ := operands rfl ‹_›
      simp_all [derivativeWithin, mentions]

/-! ## The result -/

/-- Differentiation ends, and what it gives is made of the derivatives of the parts. -/
theorem derivative_ends_structurally (v : String) (e : Expr) :
    (∀ n, e.derivativeWithin v (e.burden v + 1 + n) = some (e.structuralDerivative v)) ∧
    e.derivative v = e.structuralDerivative v ∧
    (∀ a b : Expr, a.mentions v = false → b.mentions v = true →
      (divide a b).derivative v =
        times a (times (times negativeOne (power b (literal (-2)))) (b.structuralDerivative v))) ∧
    (∀ a b : Expr, a.mentions v = true → b.mentions v = true →
      (power a b).derivative v =
        times (power (constant .euler) (times b (apply .ln a)))
          (plus (times (b.structuralDerivative v) (apply .ln a))
            (times b (times (divide one a) (a.structuralDerivative v))))) := by
  refine ⟨?_, derivative_eq_structuralDerivative v e, ?_, ?_⟩
  · intro n
    rw [← derivative_eq_structuralDerivative]
    exact derivativeWithin_of_burden_lt (by omega)
  · intro a b free occurs
    rw [derivative_binary, free, occurs, ← derivative_eq_structuralDerivative]
    rfl
  · intro a b occurs occurs'
    rw [derivative_binary, occurs, occurs', ← derivative_eq_structuralDerivative,
      ← derivative_eq_structuralDerivative]
    rfl

/-- A quotient by the variable, and a power with the variable on both sides. -/
theorem derivative_ends_structurally_self_power :
    let x := var "x"
    let logarithm := apply .ln x
    two.mentions "x" = false ∧ x.mentions "x" = true ∧
      (divide two x).derivative "x" =
        times two (times (times negativeOne (power x (literal (-2)))) one) ∧
      (power x x).derivative "x" =
        times (power (constant .euler) (times x logarithm))
          (plus (times one logarithm) (times x (times (divide one x) one))) ∧
      (power x x).derivativeWithin "x" 10 = some ((power x x).derivative "x") := by
  intro x logarithm
  have occurs : x.mentions "x" = true := by decide
  obtain ⟨ends, structural, quotient, self⟩ := derivative_ends_structurally "x" (power x x)
  have burden : (power x x).burden "x" = 9 := by decide
  rw [burden, ← structural] at ends
  exact ⟨rfl, occurs, quotient two x rfl occurs, self x x occurs occurs, ends 0⟩

end Expr

end Formulae
