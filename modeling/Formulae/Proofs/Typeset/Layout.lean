import Formulae.Expr.Typeset
import Formulae.Decimal.Numeral
import Formulae.Text.Alphabet

/-!
# What TeX prints

`layout` reads a TeX text as TeX does and gives the row that is printed.

* A text is split into pieces: numerals, words, commands and single characters.  Blanks are not
  printed.
* Braces delimit the two parts of a fraction, an exponent and the argument of a function.  The
  command `\text` takes the name of a function, and `\mathrm` that of the undefined number.
* All other braces group without being printed.  A row keeps them as a cell of its own, so that it
  can be read with and without them.  `visible` takes them out.
* Round brackets are printed.  `\left` and `\right` only choose their size.

Both steps go from the right to the left.  A piece takes in the character before it, if it can, and a
command finds its arguments in front of the row behind it.
-/

namespace Formulae.Typeset

open Formulae.Text (isDigit isLetter)

/-! ## Pieces -/

/-- A piece of a TeX text. -/
inductive Piece where
  | numeral (digits : List Char)
  | word (letters : List Char)
  | command (letters : List Char)
  | symbol (c : Char)

/-- The pieces of a text with one more character in front of it. -/
def push (c : Char) (ps : List Piece) : List Piece :=
  if isLetter c then
    match ps with
    | .word cs :: rest => .word (c :: cs) :: rest
    | _ => .word [c] :: ps
  else if isDigit c || c == '.' then
    match ps with
    | .numeral ds :: rest => .numeral (c :: ds) :: rest
    | _ => .numeral [c] :: ps
  else if c == '\\' then
    match ps with
    | .word cs :: rest => .command cs :: rest
    | _ => .symbol c :: ps
  else .symbol c :: ps

/-- The pieces of a text, in front of others. -/
def piecesBefore (cs : List Char) (ps : List Piece) : List Piece := cs.foldr push ps

/-! ## Rows -/

/-- What is printed beside each other, from left to right. -/
inductive Row where
  | empty
  /-- A numeral, a name or a constant. -/
  | operand (e : Expr) (rest : Row)
  | plus (rest : Row)
  | minus (rest : Row)
  | dot (rest : Row)
  /-- An exponent, which is raised. -/
  | raised (exponent rest : Row)
  /-- A numerator above a denominator. -/
  | fraction (numerator denominator rest : Row)
  /-- The name of a function with its argument. -/
  | applied (f : Function) (argument rest : Row)
  /-- Round brackets. -/
  | brackets (inside rest : Row)
  /-- Braces, which are not printed. -/
  | braces (inside rest : Row)
  deriving DecidableEq, Repr

/-- The row without its braces, in front of another one. -/
def Row.visible : Row → Row → Row
  | empty, after => after
  | operand e rest, after => operand e (rest.visible after)
  | plus rest, after => plus (rest.visible after)
  | minus rest, after => minus (rest.visible after)
  | dot rest, after => dot (rest.visible after)
  | raised exponent rest, after => raised (exponent.visible empty) (rest.visible after)
  | fraction numerator denominator rest, after =>
    fraction (numerator.visible empty) (denominator.visible empty) (rest.visible after)
  | applied f argument rest, after => applied f (argument.visible empty) (rest.visible after)
  | brackets inside rest, after => brackets (inside.visible empty) (rest.visible after)
  | braces inside rest, after => inside.visible (rest.visible after)

/-! ## Commands -/

/-- What a command does. -/
inductive Command where
  /-- It chooses the size of the bracket behind it. -/
  | size
  | dot
  | fraction
  | pi
  | infinity
  /-- It prints a word upright, as the name of a function. -/
  | text
  /-- It prints a word upright. -/
  | roman
  | function (f : Function)
  deriving DecidableEq, Repr

/-- The command of a name. -/
def Command.ofName? (name : String) : Option Command :=
  match name with
  | "left" | "right" => some .size
  | "cdot" => some .dot
  | "frac" => some .fraction
  | "pi" => some .pi
  | "infty" => some .infinity
  | "text" => some .text
  | "mathrm" => some .roman
  | _ => (Function.all.find? fun f => f.tex == "\\" ++ name).map .function

/-- The function whose name `\text` prints. -/
def functionOfText? (name : String) : Option Function :=
  Function.all.find? fun f => f.tex == "\\text" ++ texBraces name

/-- What a run of letters stands for. -/
def named (name : String) : Expr :=
  if name = Constant.euler.tex then .constant .euler else .var name

/-- The number that a numeral spells: digits, and behind a point other digits. -/
def numeral? (ds : List Char) : Option Float :=
  let whole := ds.takeWhile isDigit
  match ds.dropWhile isDigit with
  | [] => some (Decimal.ofDigits whole [])
  | _ :: fraction => if fraction.all isDigit then some (Decimal.ofDigits whole fraction) else none

/-! ## From pieces to rows -/

/-- A kind of bracket. -/
inductive Bracket where
  | brace
  | round
  deriving DecidableEq, Repr

/-- The row behind a place of the text, up to the bracket that closes there, and behind each closing
bracket that is still without its opening one the row that goes on there. -/
structure Line where
  /-- The row up to the closing bracket. -/
  row : Row
  /-- The closing brackets and the rows behind them. -/
  closings : List (Bracket × Row)

/-- A line with a character in front of it. -/
def Line.symbol (c : Char) (line : Line) : Option Line :=
  match c, line with
  | ' ', line => some line
  | '+', ⟨row, closings⟩ => some ⟨.plus row, closings⟩
  | '-', ⟨row, closings⟩ => some ⟨.minus row, closings⟩
  | '^', ⟨.braces exponent row, closings⟩ => some ⟨.raised exponent row, closings⟩
  | '\x7d', ⟨row, closings⟩ => some ⟨.empty, (.brace, row) :: closings⟩
  | '\x7b', ⟨inside, (.brace, row) :: closings⟩ => some ⟨.braces inside row, closings⟩
  | ')', ⟨row, closings⟩ => some ⟨.empty, (.round, row) :: closings⟩
  | '(', ⟨inside, (.round, row) :: closings⟩ => some ⟨.brackets inside row, closings⟩
  | _, _ => none

/-- A line with a command in front of it. -/
def Line.command (k : Command) (line : Line) : Option Line :=
  match k, line with
  | .size, line => some line
  | .dot, ⟨row, closings⟩ => some ⟨.dot row, closings⟩
  | .pi, ⟨row, closings⟩ => some ⟨.operand (.constant .pi) row, closings⟩
  | .infinity, ⟨row, closings⟩ => some ⟨.operand (.literal (1 / 0)) row, closings⟩
  | .fraction, ⟨.braces numerator (.braces denominator row), closings⟩ =>
    some ⟨.fraction numerator denominator row, closings⟩
  | .function f, ⟨.braces argument row, closings⟩ => some ⟨.applied f argument row, closings⟩
  | .text, ⟨.braces (.operand (.var name) .empty) (.braces argument row), closings⟩ =>
    (functionOfText? name).map fun f => ⟨.applied f argument row, closings⟩
  | .roman, ⟨.braces (.operand (.var name) .empty) row, closings⟩ =>
    if name = "NaN" then some ⟨.operand (.literal (0 / 0)) row, closings⟩ else none
  | _, _ => none

/-- A line with a piece in front of it. -/
def Line.piece (p : Piece) (line : Line) : Option Line :=
  match p with
  | .numeral ds => (numeral? ds).map fun x => ⟨.operand (.literal x) line.row, line.closings⟩
  | .word cs => some ⟨.operand (named (String.ofList cs)) line.row, line.closings⟩
  | .command cs => (Command.ofName? (String.ofList cs)).bind line.command
  | .symbol c => line.symbol c

/-- The line of a list of pieces. -/
def lineOf : List Piece → Option Line
  | [] => some ⟨.empty, []⟩
  | p :: ps => (lineOf ps).bind (Line.piece p)

/-- The row that a TeX text prints. -/
def layout (text : String) : Option Row :=
  match lineOf (piecesBefore text.toList []) with
  | some ⟨row, []⟩ => some row
  | _ => none

end Formulae.Typeset
