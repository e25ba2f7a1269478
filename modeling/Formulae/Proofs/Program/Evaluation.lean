import Formulae.Expr.Eval
import Formulae.Formula.Compiled
import Mathlib.Algebra.Group.Nat.Defs

/-!
# A program computes the value of its expression

The instructions of an expression put its value on the stack and leave the rest of the stack as it
is (`run_instructions`).  The variables have the values of their slots (`slotValue`), which are the
values that they have when the inputs are bound to the names one after the other
(`value_ofList_zip`).

The induction on the expression is over all instructions that may follow and all stacks, because the
right operand of an operator is computed above the left one.
-/

namespace Formulae

/-! ## Routines -/

/-- No two routines share a symbol. -/
theorem Routine.ofSymbol?_symbol (r : Routine) : ofSymbol? r.symbol = some r := by
  cases r with
  | power => decide
  | function f => cases f <;> decide

section

variable {A : Arithmetic Float} {inputs stack : List Float} {code : List Instruction}
  {names : List String}

@[simp] theorem run_nil : Instruction.run A inputs [] stack = stack := rfl

@[simp] theorem run_cons {i : Instruction} :
    Instruction.run A inputs (i :: code) stack =
      Instruction.run A inputs code (i.step A inputs stack) := rfl

@[simp] theorem step_push {value : Float} :
    (Instruction.push value).step A inputs stack = value :: stack := rfl

@[simp] theorem step_load {slot : Nat} :
    (Instruction.load (slot * slotWidth)).step A inputs stack = inputs.getD slot 0 :: stack := by
  rw [Instruction.step, Nat.mul_div_cancel slot (by decide)]

@[simp] theorem step_call {r : Routine} :
    (Instruction.call r.symbol).step A inputs stack = r.call A stack := by
  rw [Instruction.step, Routine.ofSymbol?_symbol]

/-- The instruction of an operator combines the two uppermost numbers. -/
@[simp] theorem step_instruction {op : Operator} {left right : Float} :
    op.instruction.step A inputs (right :: left :: stack) = A.combine op left right :: stack := by
  cases op with
  | plus | minus | times | divide => rfl
  | power => exact step_call

/-! ## Expressions -/

/-- The input in the slot of a name, zero if it has none. -/
def slotValue (names : List String) (inputs : List Float) (name : String) : Float :=
  match slotOf? name names with
  | some slot => inputs.getD slot 0
  | none => 0

/-- The instructions of an expression put its value on the stack. -/
theorem run_instructions (e : Expr) (code : List Instruction) (stack : List Float) :
    Instruction.run A inputs (e.instructions A names code) stack =
      Instruction.run A inputs code (e.eval A (slotValue names inputs) :: stack) := by
  induction e generalizing code stack with
  | literal value => rfl
  | constant c => rfl
  | var name =>
    rw [Expr.eval, slotValue, Expr.instructions]
    cases slotOf? name names with
    | some slot => simp
    | none => simp
  | binary op l r left right => rw [Expr.instructions, left, right, run_cons, step_instruction]; rfl
  | apply f u argument => rw [Expr.instructions, argument, run_cons, step_call]; rfl

/-! ## Slots -/

theorem slotOf?_lt {name : String} {slot : Nat} (found : slotOf? name names = some slot) :
    slot < names.length := by
  induction names generalizing slot with
  | nil => cases found
  | cons first rest induction =>
    rw [slotOf?] at found
    cases later : slotOf? name rest with
    | some inner =>
      rw [later] at found
      obtain rfl := Option.some.inj found
      exact Nat.succ_lt_succ (induction later)
    | none =>
      simp only [later] at found
      split at found
      next =>
        obtain rfl := Option.some.inj found
        exact Nat.succ_pos _
      next => cases found

/-- Values that are bound to names one after the other: the last one of a name counts. -/
theorem value_foldl_insert (enough : names.length ≤ inputs.length) (b : Bindings) (name : String) :
    ((names.zip inputs).foldl (fun b pair => b.insert pair.1 pair.2) b).value name =
      match slotOf? name names with
      | some slot => inputs.getD slot 0
      | none => b.value name := by
  induction names generalizing inputs b with
  | nil => rfl
  | cons first rest induction =>
    cases inputs with
    | nil => cases enough
    | cons input inputs =>
      rw [List.zip_cons_cons, List.foldl_cons, induction (Nat.le_of_succ_le_succ enough), slotOf?]
      cases slotOf? name rest with
      | some slot => rfl
      | none =>
        by_cases same : name = first
        · simp [Bindings.value_insert, same]
        · simp [Bindings.value_insert, same, Ne.symm same]

theorem value_ofList_zip (enough : names.length ≤ inputs.length) :
    (Bindings.ofList (names.zip inputs)).value = slotValue names inputs := by
  funext name
  exact value_foldl_insert enough .empty name

end

/-! ## Programs -/

namespace Program

variable {names : List String} {e : Expr} {inputs : List Float}

theorem call_compile_of_lt (short : inputs.length < names.length) :
    (compile names e).call inputs = 0 / 0 :=
  if_pos short

theorem call_compile (enough : names.length ≤ inputs.length) :
    (compile names e).call inputs = e.value (Bindings.ofList (names.zip inputs)) := by
  have notShort : ¬ inputs.length < (compile names e).arity := Nat.not_lt.2 enough
  rw [call, if_neg notShort, compile, run_instructions, Expr.value, value_ofList_zip enough]
  rfl

/-- Up to `2 ^ 28` slots can be addressed. -/
theorem isOutOfReach_eq_false (few : names.length ≤ 2 ^ 28) (name : String) :
    isOutOfReach names name = false := by
  rw [isOutOfReach]
  cases found : slotOf? name names with
  | none => rfl
  | some slot =>
    have inside := slotOf?_lt found
    have near : slot * slotWidth ≤ greatestOffset := by
      rw [slotWidth, greatestOffset]
      omega
    simp [near]

theorem build_of_length_le (few : names.length ≤ 2 ^ 28) : build names e = .ok (compile names e) := by
  have reached : e.occurrences.find? (isOutOfReach names) = none :=
    List.find?_eq_none.2 fun name _ => by simp [isOutOfReach_eq_false few]
  rw [build, reached]

/-- A program that is built is the compiled one. -/
theorem eq_compile_of_build {p : Program} (built : build names e = .ok p) : p = compile names e := by
  rw [build] at built
  split at built
  next => cases built
  next => exact (Except.ok.inj built).symm

end Program

/-! ## Formulas -/

theorem Formula.eq_compile_of_build {f : Formula} {c : CompiledFormula} (built : f.build = .ok c) :
    c = f.compile := by
  rw [Formula.build] at built
  split at built
  next program built' =>
    obtain rfl := Program.eq_compile_of_build built'
    exact (Except.ok.inj built).symm
  next => cases built

theorem CompiledFormula.eval_compile (f : Formula) (values : List Float) :
    f.compile.eval values =
      if values.length = f.variableNames.length then
        .ok (f.tree.value (Bindings.ofList (f.variableNames.zip values)))
      else .error (.inputLength f.variableNames.length values.length) := by
  rw [eval, Formula.compile]
  dsimp only
  split
  next same => rw [Program.call_compile (Nat.le_of_eq same.symm)]
  next => rfl

/-- A program gives the value of its expression with the inputs bound to the names, and an undefined
result for too few inputs.  A compiled formula also checks that there are not too many. -/
theorem compiled_value :
    (∀ (names : List String) (e : Expr), names.length < 2 ^ 28 →
      ∃ p, Program.build names e = .ok p ∧ ∀ inputs : List Float,
        (inputs.length < names.length → (p.call inputs).isNaN = true) ∧
        (names.length ≤ inputs.length →
          p.call inputs = e.value (Bindings.ofList (names.zip inputs)))) ∧
    ∀ f : Formula, (f.variableNames.length < 2 ^ 28 → ∃ c, f.build = .ok c) ∧
      ∀ c, f.build = .ok c → ∀ values : List Float,
        c.eval values =
          if values.length = f.variableNames.length then
            .ok (f.tree.value (Bindings.ofList (f.variableNames.zip values)))
          else .error (.inputLength f.variableNames.length values.length) := by
  have undefined : (0 / 0 : Float).isNaN = true := by decide
  refine ⟨fun names e few => ?_, fun f => ⟨fun few => ?_, fun c built values => ?_⟩⟩
  · refine ⟨Program.compile names e, Program.build_of_length_le (Nat.le_of_lt few), ?_⟩
    intro inputs
    constructor
    · intro short
      rw [Program.call_compile_of_lt short]
      exact undefined
    · exact Program.call_compile
  · rw [Formula.build, Program.build_of_length_le (Nat.le_of_lt few)]
    exact ⟨_, rfl⟩
  · obtain rfl := Formula.eq_compile_of_build built
    exact CompiledFormula.eval_compile f values

/-- The second slot of `x` counts, `w` has no slot, and the fourth input is ignored. -/
theorem compiled_value_repeated_name :
    (∃ p, Program.build ["x", "y", "x"] (.minus (.var "x") (.var "w")) = .ok p ∧
      (p.call [1]).isNaN = true ∧ p.call [1, 2, 3, 4] = 3) ∧
    ∃ c, Formula.build ⟨"x / y", .divide (.var "x") (.var "y"), none⟩ = .ok c ∧
      c.eval [1] = .error (.inputLength 2 1) ∧ c.eval [6, 2] = .ok 3 := by
  obtain ⟨p, built, calls⟩ :=
    compiled_value.1 ["x", "y", "x"] (.minus (.var "x") (.var "w")) (by decide)
  obtain ⟨builds, evaluates⟩ := compiled_value.2 ⟨"x / y", .divide (.var "x") (.var "y"), none⟩
  obtain ⟨c, compiled⟩ := builds (by decide)
  refine ⟨⟨p, built, (calls [1]).1 (by decide), ?_⟩, c, compiled, ?_, ?_⟩
  · rw [(calls [1, 2, 3, 4]).2 (by decide)]
    decide
  · rw [evaluates c compiled, if_neg (by decide)]
    rfl
  · rw [evaluates c compiled, if_pos (by decide)]
    exact congrArg Except.ok (by decide)

end Formulae
