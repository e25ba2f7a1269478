import Formulae.Arithmetic.Machine
import Formulae.Error
import Formulae.Expr.Variables

/-!
# Programs

An expression can be turned into a program for a stack machine, whose variables are numbered slots
of a list of inputs.  `Program.compile` takes the names of the slots.  A name that stands in
several slots means the last of them, and a variable without a slot is the number zero.

Sums, differences, products and quotients are instructions of their own.  Powers and functions are
routines, which a program calls by the symbols that they are registered under.

An input is addressed by its distance in bytes from the first one, which has to fit a signed number
of 32 bits.  `Program.build` refuses an expression with a variable that cannot be addressed.

`Program.call` runs a program.  With fewer inputs than slots the result is undefined, and inputs
past the slots are ignored.
-/

namespace Formulae

/-! ## Routines -/

/-- The symbol that the routine of a function is registered under. -/
def Function.symbol : Function → String
  | .sqrt => "graphly_sqrt"
  | .ln => "graphly_ln"
  | .log => "graphly_log"
  | .sin => "graphly_sin"
  | .sinh => "graphly_sinh"
  | .asin => "graphly_asin"
  | .asinh => "graphly_asinh"
  | .cos => "graphly_cos"
  | .cosh => "graphly_cosh"
  | .acos => "graphly_acos"
  | .acosh => "graphly_acosh"
  | .tan => "graphly_tan"
  | .tanh => "graphly_tanh"
  | .atan => "graphly_atan"
  | .atanh => "graphly_atanh"
  | .cot => "graphly_cot"
  | .coth => "graphly_coth"
  | .acot => "graphly_acot"

/-- A routine that programs call. -/
inductive Routine where
  | power
  | function (f : Function)
  deriving DecidableEq, Repr

namespace Routine

/-- All routines. -/
def all : List Routine := .power :: Function.all.map .function

/-- The symbol that a routine is registered under. -/
def symbol : Routine → String
  | .power => "graphly_powf"
  | .function f => f.symbol

/-- The routine that is registered under a symbol. -/
def ofSymbol? (symbol : String) : Option Routine := all.find? fun r => r.symbol == symbol

/-- Replaces the arguments on the stack, the last one on top, by the result. -/
def call (A : Arithmetic Float) : Routine → List Float → List Float
  | .power, exponent :: base :: stack => A.power base exponent :: stack
  | .function f, u :: stack => A.apply f u :: stack
  | _, stack => stack

end Routine

/-! ## Instructions -/

/-- A step of the stack machine. -/
inductive Instruction where
  /-- Puts a number on the stack. -/
  | push (value : Float)
  /-- Puts the input at a distance in bytes on the stack. -/
  | load (offset : Nat)
  /-- Replaces the two uppermost numbers, the right operand on top, by their sum. -/
  | add
  /-- Replaces the two uppermost numbers by their difference. -/
  | subtract
  /-- Replaces the two uppermost numbers by their product. -/
  | multiply
  /-- Replaces the two uppermost numbers by their quotient. -/
  | divide
  /-- Calls the routine that is registered under a symbol. -/
  | call (symbol : String)
  deriving DecidableEq, Repr

/-- The number of bytes of an input. -/
def slotWidth : Nat := 8

/-- The greatest distance in bytes that an instruction can name. -/
def greatestOffset : Nat := 0x7fffffff

/-- The stack after an instruction.  An instruction that lacks an operand does nothing. -/
def Instruction.step (A : Arithmetic Float) (inputs : List Float) :
    Instruction → List Float → List Float
  | .push value, stack => value :: stack
  | .load offset, stack => inputs.getD (offset / slotWidth) 0 :: stack
  | .add, right :: left :: stack => A.plus left right :: stack
  | .subtract, right :: left :: stack => A.minus left right :: stack
  | .multiply, right :: left :: stack => A.times left right :: stack
  | .divide, right :: left :: stack => A.divide left right :: stack
  | .call symbol, stack =>
    match Routine.ofSymbol? symbol with
    | some r => r.call A stack
    | none => stack
  | _, stack => stack

/-- The stack after a list of instructions. -/
def Instruction.run (A : Arithmetic Float) (inputs : List Float) (code : List Instruction)
    (stack : List Float) : List Float :=
  code.foldl (fun stack i => i.step A inputs stack) stack

/-- The instruction of an operator. -/
def Operator.instruction : Operator → Instruction
  | .plus => .add
  | .minus => .subtract
  | .times => .multiply
  | .divide => .divide
  | .power => .call Routine.power.symbol

/-- The last slot with a given name. -/
def slotOf? (name : String) : List String → Option Nat
  | [] => none
  | first :: rest =>
    match slotOf? name rest with
    | some slot => some (slot + 1)
    | none => if first == name then some 0 else none

/-- The instructions that put the value of an expression on the stack, before those of `rest`. -/
def Expr.instructions (A : Arithmetic Float) (names : List String) (rest : List Instruction) :
    Expr → List Instruction
  | .literal value => .push (A.literal value) :: rest
  | .var name =>
    match slotOf? name names with
    | some slot => .load (slot * slotWidth) :: rest
    | none => .push 0 :: rest
  | .constant c => .push (A.constant c) :: rest
  | .binary op l r => l.instructions A names (r.instructions A names (op.instruction :: rest))
  | .apply f u => u.instructions A names (.call (Routine.function f).symbol :: rest)

/-! ## Programs -/

/-- A program with its number of slots. -/
structure Program where
  /-- The number of slots. -/
  arity : Nat
  /-- The instructions. -/
  code : List Instruction

namespace Program

/-- The program of an expression over named slots. -/
def compile (names : List String) (e : Expr) : Program where
  arity := names.length
  code := e.instructions .machine names []

/-- Whether the slot of a variable is too far away to be addressed. -/
def isOutOfReach (names : List String) (name : String) : Bool :=
  (slotOf? name names).any fun slot => decide (greatestOffset < slot * slotWidth)

/-- The program of an expression over named slots, if it can address its variables. -/
def build (names : List String) (e : Expr) : Except BuildError Program :=
  match e.occurrences.find? (isOutOfReach names) with
  | some name => .error (.definition ("too many variables for " ++ name))
  | none => .ok (compile names e)

/-- The result of a program on a list of inputs. -/
def call (p : Program) (inputs : List Float) : Float :=
  if inputs.length < p.arity then 0 / 0
  else (Instruction.run .machine inputs p.code []).headD (0 / 0)

end Program

end Formulae
