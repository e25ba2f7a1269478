import Formulae.Text.Alphabet

/-!
# Tokens

A token is a piece of a formula with the position where it starts, counted in characters from
zero.  Its kind is what the grammar looks at.  Its payload is what the kind leaves open: the value
of a number, the letters of a text, or the glyph of a bracket.

Tokens are plain data: nothing forces the payload to fit the kind.  The readers of a payload
answer `none` when it is of another sort.
-/

namespace Formulae

open Formulae.Text (Family)

/-- The kind of a token. -/
inductive Kind where
  | number
  | text
  | plus
  | minus
  | times
  | divide
  | power
  | openBracket
  | closeBracket
  | eof
  deriving DecidableEq, Repr

namespace Kind

/-- All kinds. -/
def all : List Kind :=
  [.number, .text, .plus, .minus, .times, .divide, .power, .openBracket, .closeBracket, .eof]

/-- The name of a kind in messages. -/
def name : Kind → String
  | .number => "NUMBER"
  | .text => "TEXT"
  | .plus => "PLUS"
  | .minus => "MINUS"
  | .times => "TIMES"
  | .divide => "OBELUS"
  | .power => "POWER"
  | .openBracket => "OPEN_BRACKET"
  | .closeBracket => "CLOSE_BRACKET"
  | .eof => "EOF"

/-- The kind with a given name. -/
def ofName? (name : String) : Option Kind := all.find? fun k => k.name == name

/-- The kind of an operator character. -/
def ofOperator? : Char → Option Kind
  | '+' => some .plus
  | '-' => some .minus
  | '*' => some .times
  | '/' => some .divide
  | '^' => some .power
  | _ => none

end Kind

/-- What a token carries besides its kind. -/
inductive Payload where
  | none
  | number (value : Float)
  | text (letters : String)
  | bracket (glyph : Char)
  deriving DecidableEq, Repr

/-- A piece of a formula. -/
structure Token where
  /-- The kind. -/
  kind : Kind
  /-- The number of characters before the token. -/
  position : Nat
  /-- The payload. -/
  payload : Payload
  deriving DecidableEq, Repr

namespace Token

/-- A number. -/
def number (position : Nat) (value : Float) : Token := ⟨.number, position, .number value⟩

/-- A run of letters. -/
def text (position : Nat) (letters : String) : Token := ⟨.text, position, .text letters⟩

/-- A token without a payload. -/
def bare (kind : Kind) (position : Nat) : Token := ⟨kind, position, .none⟩

/-- An opening bracket. -/
def opening (position : Nat) (glyph : Char) : Token := ⟨.openBracket, position, .bracket glyph⟩

/-- A closing bracket. -/
def closing (position : Nat) (glyph : Char) : Token := ⟨.closeBracket, position, .bracket glyph⟩

/-- The end of the input. -/
def eof (position : Nat) : Token := bare .eof position

/-- The value in the payload. -/
def value? (t : Token) : Option Float :=
  match t.payload with
  | .number value => some value
  | _ => none

/-- The letters in the payload. -/
def letters? (t : Token) : Option String :=
  match t.payload with
  | .text letters => some letters
  | _ => none

/-- The letters that a token stands for. -/
def letters (t : Token) : String := t.letters?.getD ""

/-- The glyph in the payload. -/
def glyph? (t : Token) : Option Char :=
  match t.payload with
  | .bracket glyph => some glyph
  | _ => none

/-- The family of the bracket in the payload. -/
def family? (t : Token) : Option Family := t.glyph?.bind Family.ofChar?

end Token

end Formulae
