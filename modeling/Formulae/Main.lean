import Formulae.Command.Run

/-!
# The program

The command line program: it writes the output and the messages of its arguments and ends with
their code.
-/

/-- The entry point of the program. -/
def main (arguments : List String) : IO UInt32 := do
  let outcome := Formulae.runArguments arguments
  IO.print outcome.output
  IO.eprint outcome.messages
  return UInt32.ofNat outcome.code
