/-!
# Storage for samples

Samples are written to a growing list, which takes any number of values, or to a row of a fixed
length, which takes exactly that many.
-/

namespace Formulae

/-- A place for a number of floats. -/
inductive Storage where
  /-- A list of any length. -/
  | growing
  /-- A row of a fixed length. -/
  | fixed (size : Nat)
  deriving DecidableEq, Repr

namespace Storage

/-- The length of every content, if it is fixed. -/
def fixedLength? : Storage → Option Nat
  | growing => none
  | fixed size => some size

/-- A content of zeros of a given length, if the storage can have that length. -/
def zeros? (s : Storage) (length : Nat) : Option (List Float) :=
  match s with
  | growing => some (List.replicate length 0)
  | fixed size => if length = size then some (List.replicate length 0) else none

end Storage

end Formulae
