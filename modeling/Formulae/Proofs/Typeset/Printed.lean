import Formulae.Expr.Variables
import Formulae.Proofs.Canonical.Value
import Formulae.Proofs.Lexing.Pieces
import Formulae.Proofs.Typeset.Layout

/-!
# The row of an expression

`Expr.cells` puts the cells that the TeX of an expression prints in front of a row.  If the variables
are named by words (`Expr.Legible`), the TeX prints this row and no other (`layout_tex`).

`Prints cs cells` says that a piece of text prints given cells, whatever stands behind it.  What
stands behind must break off a numeral or a word that the piece may end with (`Stops`).  The texts of
an expression are put together from such pieces as the expression is from its parts.
-/

namespace Formulae

open Formulae.Text (isDigit isLetter isSeparator)
open Formulae.Number (isNegative code infinityCode ofCode)
open Formulae.Decimal (mem_numeral numeral ofDigits)
open Formulae.Typeset

/-! ## Cells -/

/-- The cells in brackets, if they are needed. -/
def groupCells (needed : Bool) (cells : Row → Row) (rest : Row) : Row :=
  if needed then .brackets (cells .empty) rest else cells rest

/-- The cells of a literal, which is printed as its sign and its magnitude. -/
def literalCells (value : Float) (rest : Row) : Row :=
  if isNegative value then .minus (.operand (.literal (-value)) rest)
  else .operand (.literal value) rest

theorem literalCells_of_not_negative {value : Float} (sign : isNegative value = false) :
    literalCells value = .operand (.literal value) := by
  funext rest
  rw [literalCells, sign, if_neg (by decide)]

theorem literalCells_of_negative {value : Float} (sign : isNegative value = true) :
    literalCells value = fun rest => .minus (.operand (.literal (-value)) rest) := by
  funext rest
  rw [literalCells, sign, if_pos rfl]

/-- The cells of an expression, in front of a row. -/
def Expr.cells : Expr → Row → Row
  | literal value, rest => literalCells value rest
  | var name, rest => .operand (var name) rest
  | constant c, rest => .operand (constant c) rest
  | plus l r, rest => l.cells (.plus (r.cells rest))
  | minus l r, rest => l.cells (.minus (groupCells r.isAdditive r.cells rest))
  | times l r, rest =>
    .braces (groupCells (l.isAdditive || l.isApplication) l.cells .empty)
      (.dot (.braces (groupCells r.isAdditive r.cells .empty) rest))
  | divide l r, rest => .fraction (l.cells .empty) (r.cells .empty) rest
  | power l r, rest =>
    .braces (groupCells l.isCompound l.cells .empty)
      (.raised (groupCells r.isAdditive r.cells .empty) rest)
  | apply f u, rest => .applied f (groupCells u.isCompound u.cells .empty) rest

/-! ## Names -/

/-- There are characters, and all of them are letters. -/
def IsRun (cs : List Char) : Prop := cs ≠ [] ∧ ∀ c ∈ cs, isLetter c = true

instance (cs : List Char) : Decidable (IsRun cs) :=
  decidable_of_iff (cs ≠ [] ∧ cs.all isLetter = true) (and_congr_right' List.all_eq_true)

/-- The name is a run of letters, other than the name of a constant. -/
structure IsWord (name : String) : Prop where
  /-- Letters only. -/
  run : IsRun name.toList
  /-- No constant. -/
  noConstant : name ≠ Constant.euler.tex

instance (name : String) : Decidable (IsWord name) :=
  decidable_of_iff (IsRun name.toList ∧ name ≠ Constant.euler.tex)
    ⟨fun ⟨run, noConstant⟩ => ⟨run, noConstant⟩, fun ⟨run, noConstant⟩ => ⟨run, noConstant⟩⟩

/-- Every variable of the expression is named by a word. -/
def Expr.Legible (e : Expr) : Prop := ∀ name ∈ e.occurrences, IsWord name

instance (e : Expr) : Decidable e.Legible :=
  inferInstanceAs (Decidable (∀ name ∈ e.occurrences, IsWord name))

theorem Expr.Legible.operands {op : Operator} {l r : Expr} (legible : (binary op l r).Legible) :
    l.Legible ∧ r.Legible :=
  List.forall_mem_append.1 legible

/-! ## Pieces of text -/

namespace Typeset

/-- No numeral and no word comes first. -/
def Stops : List Piece → Prop
  | .numeral _ :: _ | .word _ :: _ => False
  | _ => True

/-- The piece of text prints the cells. -/
def Prints (cs : List Char) (cells : Row → Row) : Prop :=
  ∀ ps, Stops ps →
    lineOf (piecesBefore cs ps) = (lineOf ps).map fun line => ⟨cells line.row, line.closings⟩

theorem piecesBefore_append (cs ds : List Char) (ps : List Piece) :
    piecesBefore (cs ++ ds) ps = piecesBefore cs (piecesBefore ds ps) :=
  List.foldr_append

theorem stops_piecesBefore {cs : List Char} {ps : List Piece} (breaks : Breaks cs)
    (stops : Stops ps) : Stops (piecesBefore cs ps) := by
  cases cs with
  | nil => exact stops
  | cons c cs =>
    obtain ⟨digit, letter, separator⟩ := breaks c (by simp)
    have point : (c == '.') = false := by
      simp only [isSeparator, Bool.or_eq_false_iff] at separator
      exact separator.1
    simp only [piecesBefore, List.foldr_cons, push, letter, digit, point, Bool.or_self,
      Bool.false_eq_true, if_false]
    split
    · split <;> trivial
    · trivial

/-- Characters that begin a piece and extend it make up one piece. -/
theorem piecesBefore_run {piece : List Char → Piece} {cs : List Char} {ps : List Piece}
    (nonempty : cs ≠ []) (begins : ∀ c ∈ cs, push c ps = piece [c] :: ps)
    (goesOn : ∀ c ∈ cs, ∀ ds, push c (piece ds :: ps) = piece (c :: ds) :: ps) :
    piecesBefore cs ps = piece cs :: ps := by
  induction cs with
  | nil => exact absurd rfl nonempty
  | cons c cs induction =>
    rw [piecesBefore, List.foldr_cons, ← piecesBefore]
    cases cs with
    | nil => exact begins c (by simp)
    | cons d ds =>
      rw [induction (by simp) (fun x inside => begins x (by simp [inside]))
        (fun x inside => goesOn x (by simp [inside])), goesOn c (by simp)]

theorem piecesBefore_word {cs : List Char} {ps : List Piece} (run : IsRun cs) (stops : Stops ps) :
    piecesBefore cs ps = .word cs :: ps := by
  obtain ⟨nonempty, letters⟩ := run
  refine piecesBefore_run nonempty (fun c inside => ?_) fun c inside ds => ?_
  · simp only [push, letters c inside, if_true]
    split
    · exact stops.elim
    · rfl
  · simp only [push, letters c inside, if_true]

theorem piecesBefore_numeral {whole fraction : List Char} {ps : List Piece} (nonempty : whole ≠ [])
    (digits : ∀ c ∈ whole ++ fraction, isDigit c = true) (stops : Stops ps) :
    piecesBefore (numeral whole fraction) ps = .numeral (numeral whole fraction) :: ps := by
  have figures : ∀ c ∈ numeral whole fraction,
      isLetter c = false ∧ (isDigit c || c == '.') = true := by
    intro c inside
    rcases mem_numeral inside with inDigits | rfl
    · have digit := digits c inDigits
      cases letter : isLetter c with
      | false => simp [digit]
      | true => simp [isDigit_of_isLetter letter] at digit
    · decide
  refine piecesBefore_run ?_ (fun c inside => ?_) fun c inside ds => ?_
  · cases fraction with
    | nil => exact nonempty
    | cons d ds => simp [numeral]
  · obtain ⟨noLetter, figure⟩ := figures c inside
    simp only [push, noLetter, figure, Bool.false_eq_true, if_false, if_true]
    split
    · exact stops.elim
    · rfl
  · obtain ⟨noLetter, figure⟩ := figures c inside
    simp only [push, noLetter, figure, Bool.false_eq_true, if_false, if_true]

/-- A numeral stands for the number that its digits spell. -/
theorem numeral?_numeral {whole fraction : List Char}
    (digits : ∀ c ∈ whole ++ fraction, isDigit c = true) :
    numeral? (numeral whole fraction) = some (ofDigits whole fraction) := by
  obtain ⟨wholeDigits, fractionDigits⟩ := List.forall_mem_append.1 digits
  cases fraction with
  | nil =>
    have none : ∀ c ∈ ([] : List Char).head?, isDigit c = false := nofun
    obtain ⟨run, remaining⟩ := span_of_head? wholeDigits none
    rw [List.append_nil] at run remaining
    simp only [numeral?, numeral, run, remaining]
  | cons d ds =>
    have point : ∀ c ∈ ('.' :: d :: ds).head?, isDigit c = false := by
      intro c first
      obtain rfl : '.' = c := by simpa using first
      decide
    obtain ⟨run, remaining⟩ := span_of_head? wholeDigits point
    simp only [numeral?, numeral, run, remaining, List.all_eq_true.2 fractionDigits, if_true]

namespace Prints

variable {cs ds : List Char} {cells cells' : Row → Row}

theorem nil : Prints [] id := by
  intro ps _
  exact Option.map_id.symm ▸ rfl

theorem append (first : Prints cs cells) (breaks : Breaks ds) (second : Prints ds cells') :
    Prints (cs ++ ds) fun row => cells (cells' row) := by
  intro ps stops
  rw [piecesBefore_append, first _ (stops_piecesBefore breaks stops), second ps stops,
    Option.map_map]
  rfl

theorem word (run : IsRun cs) : Prints cs (.operand (named (String.ofList cs))) := by
  intro ps stops
  rw [piecesBefore_word run stops, lineOf]
  cases lineOf ps <;> rfl

theorem numeral {whole fraction : List Char} (nonempty : whole ≠ [])
    (digits : ∀ c ∈ whole ++ fraction, isDigit c = true) :
    Prints (numeral whole fraction) (.operand (.literal (ofDigits whole fraction))) := by
  intro ps stops
  rw [piecesBefore_numeral nonempty digits stops, lineOf]
  unfold Line.piece
  simp only [numeral?_numeral digits]
  cases lineOf ps <;> rfl

/-- A minus sign without blanks. -/
theorem sign (others : Prints cs cells) : Prints ('-' :: cs) fun row => .minus (cells row) := by
  intro ps stops
  change (lineOf (piecesBefore cs ps)).bind (Line.piece (.symbol '-')) = _
  rw [others ps stops]
  cases lineOf ps <;> rfl

theorem plus (others : Prints cs cells) :
    Prints (" + ".toList ++ cs) fun row => .plus (cells row) := by
  intro ps stops
  change lineOf (.symbol ' ' :: .symbol '+' :: .symbol ' ' :: piecesBefore cs ps) = _
  rw [lineOf, lineOf, lineOf, others ps stops]
  cases lineOf ps <;> rfl

theorem minus (others : Prints cs cells) :
    Prints (" - ".toList ++ cs) fun row => .minus (cells row) := by
  intro ps stops
  change lineOf (.symbol ' ' :: .symbol '-' :: .symbol ' ' :: piecesBefore cs ps) = _
  rw [lineOf, lineOf, lineOf, others ps stops]
  cases lineOf ps <;> rfl

theorem dot (others : Prints cs cells) :
    Prints (" \\cdot ".toList ++ cs) fun row => .dot (cells row) := by
  intro ps stops
  change lineOf (.symbol ' ' :: .command "cdot".toList :: .symbol ' ' :: piecesBefore cs ps) = _
  rw [lineOf, lineOf, lineOf, others ps stops]
  cases lineOf ps <;> rfl

theorem braces (inside : Prints cs cells) :
    Prints ('\x7b' :: (cs ++ ['\x7d'])) (.braces (cells .empty)) := by
  intro ps stops
  change (lineOf (piecesBefore (cs ++ ['\x7d']) ps)).bind (Line.piece (.symbol '\x7b')) = _
  rw [piecesBefore_append, inside (piecesBefore ['\x7d'] ps) trivial]
  change (((lineOf ps).bind (Line.piece (.symbol '\x7d'))).map _).bind _ = _
  cases lineOf ps <;> rfl

theorem brackets (inside : Prints cs cells) :
    Prints ("\\left(".toList ++ (cs ++ "\\right)".toList)) (.brackets (cells .empty)) := by
  intro ps stops
  change lineOf (.command "left".toList :: .symbol '(' ::
    piecesBefore (cs ++ "\\right)".toList) ps) = _
  rw [piecesBefore_append, lineOf, lineOf, inside (piecesBefore "\\right)".toList ps) trivial]
  change ((((lineOf (.command "right".toList :: .symbol ')' :: ps)).map _).bind _).bind _) = _
  rw [lineOf, lineOf]
  cases lineOf ps <;> rfl

theorem raised (inside : Prints cs cells) :
    Prints ('^' :: '\x7b' :: (cs ++ ['\x7d'])) (.raised (cells .empty)) := by
  intro ps stops
  change (lineOf (piecesBefore ('\x7b' :: (cs ++ ['\x7d'])) ps)).bind (Line.piece (.symbol '^')) = _
  rw [inside.braces ps stops]
  cases lineOf ps <;> rfl

/-- A command with what it takes in. -/
theorem command (name : List Char) (k : Command) (run : IsRun name)
    (known : Command.ofName? (String.ofList name) = some k) (breaks : Breaks cs)
    (others : Prints cs cells)
    (takes : ∀ line : Line,
      Line.command k ⟨cells line.row, line.closings⟩ = some ⟨cells' line.row, line.closings⟩) :
    Prints ('\\' :: (name ++ cs)) cells' := by
  intro ps stops
  rw [← List.cons_append, piecesBefore_append, piecesBefore, List.foldr_cons, ← piecesBefore,
    piecesBefore_word run (stops_piecesBefore breaks stops)]
  change (lineOf (piecesBefore cs ps)).bind (Line.piece (.command name)) = _
  rw [others ps stops]
  cases lineOf ps with
  | none => rfl
  | some line =>
    change (Command.ofName? (String.ofList name)).bind _ = _
    rw [known]
    exact takes line

theorem fraction (above : Prints cs cells) (below : Prints ds cells') :
    Prints ("\\frac".toList ++ ('\x7b' :: (cs ++ ['\x7d']) ++ '\x7b' :: (ds ++ ['\x7d'])))
      (.fraction (cells .empty) (cells' .empty)) :=
  command "frac".toList .fraction (by decide) rfl
    (.cons rfl rfl rfl) (above.braces.append (.cons rfl rfl rfl) below.braces) fun _ => rfl

end Prints

/-! ## Functions -/

/-- The name of a function is a command, or a text of its own. -/
theorem command_or_text (f : Function) :
    (∃ cs, f.tex.toList = '\\' :: cs ∧ IsRun cs ∧
      Command.ofName? (String.ofList cs) = some (.function f)) ∨
    ∃ cs, f.tex.toList = "\\text".toList ++ '\x7b' :: (cs ++ ['\x7d']) ∧ IsRun cs ∧
      named (String.ofList cs) = .var (String.ofList cs) ∧
        functionOfText? (String.ofList cs) = some f := by
  cases f with
  | asinh => exact .inr ⟨"arsinh".toList, by decide⟩
  | acosh => exact .inr ⟨"arcosh".toList, by decide⟩
  | atanh => exact .inr ⟨"artanh".toList, by decide⟩
  | acot => exact .inr ⟨"arccot".toList, by decide⟩
  | _ => exact .inl ⟨_, rfl, by decide⟩

/-- A function with its argument. -/
theorem Prints.applied {cs : List Char} {cells : Row → Row} (f : Function)
    (argument : Prints cs cells) :
    Prints (f.tex.toList ++ '\x7b' :: (cs ++ ['\x7d'])) (.applied f (cells .empty)) := by
  have opens (ds : List Char) : Breaks ('\x7b' :: ds) := .cons rfl rfl rfl
  rcases command_or_text f with ⟨name, tex, run, known⟩ | ⟨name, tex, run, plain, known⟩
  · rw [tex, List.cons_append]
    exact command name _ run known (opens _) argument.braces fun _ => rfl
  · rw [tex, List.append_assoc]
    refine command "text".toList .text (by decide) rfl (opens _)
      ((word run).braces.append (opens _) argument.braces) fun line => ?_
    rw [plain]
    change (functionOfText? (String.ofList name)).map _ = _
    rw [known]
    rfl

/-! ## Literals -/

theorem Prints.infinity : Prints "\\infty".toList (.operand (.literal (1 / 0))) :=
  command "infty".toList .infinity (by decide) rfl .nil .nil fun _ => rfl

theorem Prints.undefined : Prints "\\mathrm\x7bNaN\x7d".toList (.operand (.literal (0 / 0))) :=
  have name : Prints "NaN".toList (.operand (named "NaN")) :=
    word (by decide)
  command "mathrm".toList .roman (by decide) rfl (.cons rfl rfl rfl) name.braces fun _ => rfl

/-- The text of a finite float is its sign and a numeral. -/
theorem Prints.finite {x : Float} (finite : code x < infinityCode) :
    Prints (Decimal.plain x).toList (literalCells x) := by
  obtain ⟨whole, fraction, text, nonempty, digits, value⟩ := Decimal.exists_toList_plain finite
  have magnitude := numeral nonempty digits
  have signed := Number.ofCode_code finite.le
  rw [value] at magnitude
  rw [text]
  cases sign : isNegative x with
  | false =>
    rw [sign] at signed
    rw [signed] at magnitude
    rw [literalCells_of_not_negative sign]
    exact magnitude
  | true =>
    rw [sign] at signed
    have opposite : -x = ofCode false (code x) :=
      calc -x = -ofCode true (code x) := by rw [signed]
        _ = ofCode false (code x) := Number.neg_ofCode finite.le
    rw [literalCells_of_negative sign, opposite]
    exact magnitude.sign

theorem Prints.literal (value : Float) :
    Prints (texLiteral value).toList (literalCells value) := by
  unfold texLiteral
  split
  next undefined =>
    obtain rfl := Number.eq_of_isNaN undefined
    rw [literalCells_of_not_negative (by decide)]
    exact .undefined
  next defined =>
    split
    next infinite =>
      have quotient := Number.eq_of_isInf infinite
      split
      next negative =>
        rw [if_pos negative] at quotient
        have opposite : -(-1 / 0 : Float) = 1 / 0 := by decide
        rw [quotient, literalCells_of_negative (by decide), opposite]
        exact Prints.infinity.sign
      next positive =>
        rw [if_neg positive] at quotient
        rw [quotient, literalCells_of_not_negative (by decide)]
        exact .infinity
    next finite =>
      refine .finite ?_
      simp only [Number.isNaN_eq, Number.isInf_eq, decide_eq_true_eq] at defined finite
      omega

/-! ## Expressions -/

theorem Prints.group {text : String} {cells : Row → Row} (needed : Bool)
    (inside : Prints text.toList cells) :
    Prints (texGroup needed text).toList (groupCells needed cells) := by
  cases needed with
  | false => exact inside
  | true =>
    change Prints ("\\left(" ++ text ++ "\\right)").toList (.brackets (cells .empty))
    simpa using inside.brackets

theorem Prints.constant (c : Constant) : Prints c.tex.toList (.operand (.constant c)) := by
  cases c with
  | euler => exact show Prints ['e'] _ from word (by decide)
  | pi => exact command ['p', 'i'] .pi (by decide) rfl .nil .nil fun _ => rfl

theorem Prints.var {name : String} (isWord : IsWord name) :
    Prints name.toList (.operand (.var name)) := by
  have text := word isWord.run
  rw [String.ofList_toList, named, if_neg isWord.noConstant] at text
  exact text

/-- The TeX of an expression prints its cells, whatever stands behind it. -/
theorem prints_tex {e : Expr} (legible : e.Legible) : Prints e.tex.toList e.cells := by
  induction e with
  | literal value => exact .literal value
  | var name => exact .var (legible name (by simp [Expr.occurrences]))
  | constant c => exact .constant c
  | binary op l r left right =>
    have printsLeft := left legible.operands.1
    have printsRight := right legible.operands.2
    cases op with
    | plus =>
      have text : (Expr.plus l r).tex.toList = l.tex.toList ++ (" + ".toList ++ r.tex.toList) := by
        simp [Expr.tex]
      rw [text]
      exact printsLeft.append (.cons rfl rfl rfl) printsRight.plus
    | minus =>
      have text : (Expr.minus l r).tex.toList =
          l.tex.toList ++ (" - ".toList ++ (texGroup r.isAdditive r.tex).toList) := by
        simp [Expr.tex]
      rw [text]
      exact printsLeft.append (.cons rfl rfl rfl) (printsRight.group r.isAdditive).minus
    | times =>
      have text : (Expr.times l r).tex.toList =
          '\x7b' :: ((texGroup (l.isAdditive || l.isApplication) l.tex).toList ++ ['\x7d']) ++
            (" \\cdot ".toList ++
              '\x7b' :: ((texGroup r.isAdditive r.tex).toList ++ ['\x7d'])) := by
        simp [Expr.tex, texBraces]
      rw [text]
      exact (printsLeft.group _).braces.append (.cons rfl rfl rfl) (printsRight.group _).braces.dot
    | divide =>
      have text : (Expr.divide l r).tex.toList =
          "\\frac".toList ++ ('\x7b' :: (l.tex.toList ++ ['\x7d']) ++
            '\x7b' :: (r.tex.toList ++ ['\x7d'])) := by
        simp [Expr.tex, texBraces]
      rw [text]
      exact printsLeft.fraction printsRight
    | power =>
      have text : (Expr.power l r).tex.toList =
          '\x7b' :: ((texGroup l.isCompound l.tex).toList ++ ['\x7d']) ++
            '^' :: '\x7b' :: ((texGroup r.isAdditive r.tex).toList ++ ['\x7d']) := by
        simp [Expr.tex, texBraces]
      rw [text]
      exact (printsLeft.group _).braces.append (.cons rfl rfl rfl) (printsRight.group _).raised
  | apply f u argument =>
    have text : (Expr.apply f u).tex.toList =
        f.tex.toList ++ '\x7b' :: ((texGroup u.isCompound u.tex).toList ++ ['\x7d']) := by
      simp [Expr.tex, texBraces]
    rw [text]
    exact ((argument legible).group _).applied f

end Typeset

/-- The TeX of an expression prints its cells. -/
theorem layout_tex {e : Expr} (legible : e.Legible) : layout e.tex = some (e.cells .empty) := by
  rw [layout, prints_tex legible [] trivial]
  rfl

end Formulae
