import Formulae.Token.Stream

/-!
# Queues of tokens

A queue is a list of the tokens that are still to be read, with the final one among them.  Its front is
read by an index.  Nothing in a queue says that it has a front, and so a use of a queue can break off.

A position is a machine word.  What becomes of a sum that does not fit is left to the build of a
program: a checked build breaks off, and in an unchecked one the sum wraps around.
-/

namespace Formulae

/-! ## Positions -/

/-- The least number that is too great for a position. -/
def positionBound : Nat := UInt64.size

/-- How a program is built. -/
inductive Build where
  /-- An addition breaks off if the sum does not fit. -/
  | checked
  /-- An addition wraps around if the sum does not fit. -/
  | unchecked
  deriving DecidableEq, Repr

/-- The position that lies a number of characters behind another, if the build gives one. -/
def Build.advance? : Build → Nat → Nat → Option Nat
  | .checked, position, offset =>
    if position + offset < positionBound then some (position + offset) else none
  | .unchecked, position, offset => some ((position + offset) % positionBound)

/-- A sum that fits is given by every build.  One that does not is missing in a checked build only. -/
theorem Build.advance?_cases (build : Build) (position offset : Nat) :
    (∃ sum, build.advance? position offset = some sum ∧
      (position + offset < positionBound → sum = position + offset)) ∨
    build = .checked ∧ positionBound ≤ position + offset ∧
      build.advance? position offset = none := by
  by_cases fits : position + offset < positionBound
  · refine .inl ⟨position + offset, ?_, fun _ => rfl⟩
    cases build with
    | checked => exact if_pos fits
    | unchecked => exact congrArg some (Nat.mod_eq_of_lt fits)
  · cases build with
    | checked => exact .inr ⟨rfl, Nat.le_of_not_lt fits, if_neg fits⟩
    | unchecked => exact .inl ⟨_, rfl, fun fits' => absurd fits' fits⟩

/-! ## Queues -/

/-- The tokens with the final one, the next one first. -/
abbrev Queue := List Token

namespace Queue

/-- The queue of a list, with positions that are numbers of any size.  A list that does not end in
`eof` gets one. -/
def ofList (tokens : List Token) : Queue :=
  match tokens.getLast? with
  | some last =>
    if last.kind = .eof then tokens else tokens ++ [Token.eof (last.position + 1)]
  | none => tokens ++ [Token.eof 0]

/-- The queue that a build makes of a list, if it does not break off. -/
def make? (build : Build) (tokens : List Token) : Option Queue :=
  match tokens.getLast? with
  | some last =>
    if last.kind = .eof then some tokens
    else do
      let position ← build.advance? last.position 1
      some (tokens ++ [Token.eof position])
  | none => some (tokens ++ [Token.eof 0])

/-- The token at the index of the front, if there is one. -/
def peek? (q : Queue) : Option Token := q[0]?

/-- The next token, and the queue without it unless it is the only one. -/
def next? (q : Queue) : Option (Token × Queue) :=
  if q.length = 1 then do
    let only ← q[0]?
    some (only, q)
  else
    match q with
    | t :: q => some (t, q)
    | [] => some (Token.eof 0, [])

/-- The queue after tokens were pushed to its front, the last of them first. -/
def prepend (q : Queue) (tokens : List Token) : Queue := tokens.foldr List.cons q

end Queue

end Formulae
