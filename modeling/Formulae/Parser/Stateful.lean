import Formulae.Parser.Basic
import Formulae.Token.Queue

/-!
# The grammar with a state

The rules of the grammar take a stream and the number of levels that are left.  This module has them in
the form of a parser that works on a state: a queue of tokens, and a counter that goes up before each
power and factor and down behind it.  Such a parser can go wrong where the rules cannot.  Its loops and
its recursion need not come to an end, it may ask an empty queue for its front, and after a failure the
counter may be left where it was.  The letter that is split off a text goes back into the queue, and its
position may be too great for a machine word.  The definitions allow all this.

What the parser does at a call is a `Program` that makes calls in turn.  `perform` gives up when more than
a given number of calls would be open at once.
-/

namespace Formulae.Stateful

/-! ## Work on a state -/

/-- Why a parser breaks off. -/
inductive Fault where
  /-- The front of an empty queue is asked for. -/
  | emptyQueue
  /-- A level is left that was not entered. -/
  | noLevel
  /-- A position is too great. -/
  | overflow
  deriving DecidableEq, Repr

/-- The state of a parser. -/
structure State where
  /-- The tokens that are still to be read. -/
  queue : Queue
  /-- The number of powers and factors that are open. -/
  depth : Nat
  /-- The greatest number of them so far. -/
  deepest : Nat

/-- The state before there are any tokens. -/
def State.start : State := ⟨[], 0, 0⟩

/-- Work on a state.  It may break off, and it may be given up. -/
abbrev Work := StateT State (ExceptT Fault Option)

/-- Work that may end with an error.  What it did to the state is kept. -/
abbrev Action := ExceptT ParseError Work

variable {α : Type}

/-- A use of the queue. -/
def useQueue (use : Queue → Option (α × Queue)) : Work α := do
  let state ← get
  match use state.queue with
  | some (answer, queue) =>
    set { state with queue }
    return answer
  | none => throw .emptyQueue

/-- The next token, which stays in the queue. -/
def peek : Work Token := useQueue fun queue => queue.peek?.map (·, queue)

/-- The next token, which is taken away. -/
def take : Work Token := useQueue Queue.next?

/-- Puts tokens in front. -/
def putBack (tokens : List Token) : Work Unit := useQueue fun queue => some ((), queue.prepend tokens)

/-- Takes the next token away, if it is used up. -/
def useUp (consumes : Bool) : Work Unit := if consumes then discard take else pure ()

/-- Fills the queue with a list. -/
def fill (build : Build) (tokens : List Token) : Work Unit :=
  match Queue.make? build tokens with
  | some queue => modify fun state => { state with queue }
  | none => throw .overflow

/-- The position that lies a number of characters behind another. -/
def advance (build : Build) (position offset : Nat) : Work Nat :=
  match build.advance? position offset with
  | some sum => pure sum
  | none => throw .overflow

/-- Goes one level down. -/
def enter : Work Unit :=
  modify fun state =>
    { state with depth := state.depth + 1, deepest := max state.deepest (state.depth + 1) }

/-- Goes one level up. -/
def leave : Work Unit := do
  let state ← get
  match state.depth with
  | depth + 1 => set { state with depth }
  | 0 => throw .noLevel

/-- Ends with an error. -/
def fail (cause : ParseError) : Action α := ExceptT.mk (pure (.error cause))

/-- Requires the next token to be of a kind. -/
def expect (expected : Kind) : Action Unit := do
  let found ← peek
  if found.kind = expected then pure ()
  else fail (.unexpected found.kind expected found.position)

/-- Works one level down.  The level is left when the work is over, also if it failed. -/
def nested (action : Action α) : Action α :=
  (do
    let state ← get
    if maxDepth ≤ state.depth then
      let token ← peek
      return .error (.tooDeep maxDepth token.position)
    else
      enter
      let outcome ← action.run
      leave
      return outcome : Work (Except ParseError α))

/-! ## Rules -/

/-- The operators that group to the left. -/
inductive Level where
  /-- The operators between terms. -/
  | sums
  /-- The operators between powers. -/
  | products

/-- The operators that a token announces. -/
def Level.announced : Level → Announced
  | .sums => betweenTerms
  | .products => betweenPowers

/-- What may be called. -/
inductive Call where
  /-- A power. -/
  | power
  /-- A factor. -/
  | factor
  /-- The operands that follow a first one. -/
  | more (level : Level) (left : Expr)

/-- Work that makes calls. -/
abbrev Program (α : Type) := (Call → Action Expr) → Action α

section

variable (build : Build) (call : Call → Action Expr)

/-- Operands with operators between them. -/
def chain (level : Level) (operand : Action Expr) : Action Expr := do
  let left ← operand
  call (.more level left)

/-- A term. -/
def term : Action Expr := chain call .products (call .power)

/-- An expression. -/
def expression : Action Expr := chain call .sums (term call)

/-- An operand. -/
def operand : Level → Action Expr
  | .sums => term call
  | .products => call .power

/-- The operands that follow a first one. -/
def more (level : Level) (left : Expr) : Action Expr := do
  let token ← peek
  match level.announced token.kind with
  | none => pure left
  | some (op, consumes) => do
    useUp consumes
    let right ← operand call level
    call (.more level (.binary op left right))

/-- A power, on its level. -/
def power : Action Expr := do
  let base ← call .factor
  let token ← peek
  if token.kind = .power then do
    let _ ← take
    let exponent ← call .power
    pure (.power base exponent)
  else pure base

/-- A run of letters. -/
def word (token : Token) : Action Expr :=
  match Word.read token.letters with
  | .constant c => pure (.constant c)
  | .function f => do
    let argument ← call .factor
    pure (.apply f argument)
  | .applied f c => pure (.apply f (.constant c))
  | .glued f offset letter => do
    let position ← advance build token.position offset
    putBack [Token.text position (String.singleton letter)]
    let argument ← call .factor
    pure (.apply f argument)
  | .var name => pure (.var name)

/-- An expression in brackets, behind the opening one. -/
def bracketed (opening : Token) : Action Expr := do
  let inside ← expression call
  expect .closeBracket
  let closing ← take
  if opening.family? = closing.family? then pure inside
  else fail (.mismatch (opening.glyph?.getD '?') (closing.glyph?.getD '?') closing.position)

/-- A factor, on its level. -/
def factor : Action Expr := do
  let token ← peek
  match token.kind with
  | .text => do
    let token ← take
    word build call token
  | .minus => do
    let _ ← take
    let e ← call .factor
    pure e.negate
  | .openBracket => do
    let opening ← take
    bracketed call opening
  | _ => do
    expect .number
    let token ← take
    pure (.literal (token.value?.getD 0))

/-- What is done at a call. -/
def answer : Call → Action Expr
  | .power => nested (power call)
  | .factor => nested (factor build call)
  | .more level left => more call level left

/-- One expression, and the end of the input right after it. -/
def parse : Action Expr := do
  let e ← expression call
  expect .eof
  pure e

/-- The expression of a list of tokens. -/
def parseList (tokens : List Token) : Action Expr := do
  fill build tokens
  parse call

end

/-- What is done at a call, with at most a number of calls open at once. -/
def perform (build : Build) : Nat → Call → Action Expr
  | 0, _ => ExceptT.mk fun _ => none
  | calls + 1, c => answer build (perform build calls) c

end Formulae.Stateful
