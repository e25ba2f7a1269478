import Formulae.Expr.Basic

/-!
# Reading a run of letters

A run of letters has one of five readings.  The first that fits is taken.

* The name of a constant.
* The name of a function, whose argument follows.
* The name of a function with the name of a constant right behind it, its argument.  The names of
  the constants are tried in the order of `Constant.names`.
* The name of a function with one more letter, which begins its argument.
* A variable, named by the whole run.
-/

namespace Formulae

/-- The text before a given ending. -/
def dropEnding? (ending text : List Char) : Option (List Char) :=
  if ending.isSuffixOf text then some (text.take (text.length - ending.length)) else none

/-- A reading of a run of letters. -/
inductive Word where
  /-- A constant. -/
  | constant (c : Constant)
  /-- A function whose argument follows the run. -/
  | function (f : Function)
  /-- A function with a constant as its argument. -/
  | applied (f : Function) (c : Constant)
  /-- A function and the letter that begins its argument, with the number of letters before it. -/
  | glued (f : Function) (offset : Nat) (letter : Char)
  /-- A variable. -/
  | var (name : String)
  deriving DecidableEq, Repr

namespace Word

/-- The reading as a function with the name of a constant right behind it. -/
def applied? (letters : List Char) : Option Word :=
  Constant.names.findSome? fun entry =>
    (dropEnding? entry.1.toList letters).bind fun start =>
      (Function.ofName? (String.ofList start)).map fun f => .applied f entry.2

/-- The reading as a function with one more letter. -/
def glued? (letters : List Char) : Option Word :=
  letters.getLast?.bind fun last =>
    (Function.ofName? (String.ofList letters.dropLast)).map fun f =>
      .glued f letters.dropLast.length last

/-- The first reading that fits. -/
def read (letters : String) : Word :=
  match Constant.ofName? letters with
  | some c => .constant c
  | none =>
    match Function.ofName? letters with
    | some f => .function f
    | none =>
      match applied? letters.toList with
      | some word => word
      | none => (glued? letters.toList).getD (.var letters)

/-- A glued letter follows at least one other letter and is the last of the run. -/
theorem offset_of_read_glued {letters : String} {f : Function} {offset : Nat} {letter : Char}
    (reading : read letters = .glued f offset letter) :
    0 < offset ∧ offset + 1 = letters.toList.length := by
  have fromApplied : ∀ word, applied? letters.toList = some word → word ≠ .glued f offset letter := by
    intro word found
    obtain ⟨entry, -, found⟩ := List.exists_of_findSome?_eq_some found
    obtain ⟨start, -, found⟩ := Option.bind_eq_some_iff.1 found
    obtain ⟨g, -, rfl⟩ := Option.map_eq_some_iff.1 found
    simp
  have fromGlued : glued? letters.toList = some (.glued f offset letter) := by
    unfold read at reading
    split at reading
    · cases reading
    · split at reading
      · cases reading
      · split at reading
        · rename_i word found
          exact absurd reading (fromApplied word found)
        · cases found : glued? letters.toList with
          | none => simp [found] at reading
          | some word => simpa [found] using reading
  obtain ⟨last, isLast, mapped⟩ := Option.bind_eq_some_iff.1 fromGlued
  obtain ⟨g, named, equal⟩ := Option.map_eq_some_iff.1 mapped
  simp only [glued.injEq] at equal
  obtain ⟨-, rfl, -⟩ := equal
  have nonempty : letters.toList ≠ [] := by
    intro none
    simp [none] at isLast
  have positive : 0 < letters.toList.length := List.length_pos_iff.2 nonempty
  refine ⟨?_, by simp only [List.length_dropLast]; omega⟩
  rcases Nat.eq_zero_or_pos letters.toList.dropLast.length with empty | some
  · rw [List.eq_nil_of_length_eq_zero empty, show Function.ofName? (String.ofList []) = none by decide]
      at named
    cases named
  · exact some

end Word

end Formulae
