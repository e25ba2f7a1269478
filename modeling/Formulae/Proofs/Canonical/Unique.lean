import Formulae.Proofs.Canonical.Value

/-!
# Trees with the same text

The canonical text of a tree determines the tree, up to what it writes out
(`writeOut_eq_of_sameAs`), and so its value (`value_eq_of_sameAs`).  This needs no parser, which
would not read a text that nests too many levels, and the name of a variable need not be read as
one: it is a run of letters that is no constant.

The text of a tree begins with a run of plain characters, those of numerals and names, and after
the run the text ends or a bracket follows (`Printed`).  What stands behind a tree in a longer text
is a blank or a closing bracket (`Ends`).  So a longer text says where the run ends
(`Printed.split`), whether it is a leaf, and which node it is otherwise: an operation has no run, an
application has its name, and only the text of `coth`, which has no run either, goes on with a
circumflex right behind a name (`Printed.ne_exponential`).
-/

namespace Formulae

open Formulae.Text (isDigit isLetter)
open Formulae.Number
open Formulae.Decimal (numeral mem_numeral)

/-! ## Names -/

/-- The name is a run of letters, other than the names of the constants in canonical text. -/
structure IsLettered (name : String) : Prop where
  /-- Letters only. -/
  letters : ∀ c ∈ name.toList, isLetter c = true
  /-- No constant. -/
  noConstant (c : Constant) : name ≠ c.name

instance (name : String) : Decidable (IsLettered name) :=
  decidable_of_iff (name.toList.all isLetter = true ∧ ∀ c ∈ [.euler, .pi], name ≠ c.name)
    ⟨fun ⟨letters, noConstant⟩ =>
        ⟨List.all_eq_true.1 letters, fun c => noConstant c (by cases c <;> simp)⟩,
      fun ⟨letters, noConstant⟩ => ⟨List.all_eq_true.2 letters, fun c _ => noConstant c⟩⟩

/-- Every variable of the tree is named by letters. -/
def Expr.Lettered (e : Expr) : Prop := ∀ name ∈ e.occurrences, IsLettered name

instance (e : Expr) : Decidable e.Lettered :=
  inferInstanceAs (Decidable (∀ name ∈ e.occurrences, IsLettered name))

theorem Expr.Lettered.operands {op : Operator} {l r : Expr} (lettered : (binary op l r).Lettered) :
    l.Lettered ∧ r.Lettered :=
  List.forall_mem_append.1 lettered

/-! ## Texts of literals -/

theorem parse_plain {x : Float} (finite : x.isFinite = true) :
    parse (Decimal.plain x) = .ok (.literal x) := by
  rw [isFinite_iff] at finite
  have spells := (writes_plain finite).term.expression
  refine (parse_of_spells spells).enough ?_
  split <;> decide

/-- The text of a finite literal is a numeral, with or without a sign. -/
theorem exists_numeral {x : Float} (finite : x.isFinite = true) :
    ∃ sign whole fraction, (Decimal.plain x).toList = sign ++ numeral whole fraction ∧
      (∀ c ∈ sign, c = '-') ∧ whole ≠ [] ∧ ∀ c ∈ whole ++ fraction, isDigit c = true := by
  rw [isFinite_iff] at finite
  obtain ⟨whole, fraction, text, nonempty, digits, -⟩ := Decimal.exists_toList_plain finite
  refine ⟨_, whole, fraction, text, ?_, nonempty, digits⟩
  split
  next => simp
  next => simp

/-! ## Runs of plain characters -/

/-- The characters of numerals and names. -/
def isPlain (c : Char) : Bool := isDigit c || isLetter c || c == '.' || c == '-'

theorem isPlain_of_isDigit {c : Char} (digit : isDigit c = true) : isPlain c = true := by
  simp [isPlain, digit]

theorem isPlain_of_isLetter {c : Char} (letter : isLetter c = true) : isPlain c = true := by
  simp [isPlain, letter]

theorem isPlain_of_mem_plain {x : Float} (finite : x.isFinite = true) {c : Char}
    (membership : c ∈ (Decimal.plain x).toList) : isPlain c = true := by
  obtain ⟨sign, whole, fraction, text, signs, -, digits⟩ := exists_numeral finite
  rw [text, List.mem_append] at membership
  rcases membership with inSign | inNumeral
  · rw [signs c inSign]
    rfl
  · rcases mem_numeral inNumeral with inDigits | rfl
    · exact isPlain_of_isDigit (digits c inDigits)
    · rfl

/-- A finite literal is not written as a name. -/
theorem exists_digit_mem_plain {x : Float} (finite : x.isFinite = true) :
    ∃ c ∈ (Decimal.plain x).toList, isLetter c = false := by
  obtain ⟨sign, whole, fraction, text, -, nonempty, digits⟩ := exists_numeral finite
  obtain ⟨c, cs, rfl⟩ := List.exists_cons_of_ne_nil nonempty
  refine ⟨c, ?_, ?_⟩
  · cases fraction <;> simp [text, numeral]
  · have digit := digits c (by simp)
    cases letter : isLetter c with
    | false => rfl
    | true =>
      rw [isDigit_of_isLetter letter] at digit
      cases digit

theorem plain_ne_letters {x : Float} (finite : x.isFinite = true) {cs : List Char}
    (letters : ∀ c ∈ cs, isLetter c = true) : (Decimal.plain x).toList ≠ cs := by
  rintro rfl
  obtain ⟨c, membership, noLetter⟩ := exists_digit_mem_plain finite
  rw [letters c membership] at noLetter
  cases noLetter

theorem Constant.letters_name (c : Constant) : ∀ d ∈ c.name.toList, isLetter d = true :=
  List.all_eq_true.1 (by cases c <;> decide)

theorem Function.letters_name (f : Function) : ∀ d ∈ f.name.toList, isLetter d = true :=
  List.all_eq_true.1 (by cases f <;> decide)

theorem Function.name_ne_nil (f : Function) : f.name.toList ≠ [] := by
  cases f <;> simp [name]

theorem Operator.glyph_injective {op op' : Operator} (same : op.glyph = op'.glyph) : op = op' := by
  cases op <;> cases op' <;> first | rfl | cases same

theorem Function.name_injective {f g : Function} (same : f.name = g.name) : f = g := by
  have found := ofName?_name f
  rw [same, ofName?_name g] at found
  cases found
  rfl

/-- What stands behind a tree in a longer text. -/
def Ends (cs : List Char) : Prop := ∀ c ∈ cs.head?, c = ' ' ∨ c = ')'

theorem Ends.blank (cs : List Char) : Ends (' ' :: cs) := by simp [Ends]

theorem Ends.closing (cs : List Char) : Ends (')' :: cs) := by simp [Ends]

theorem Ends.ne_opening {r tail : List Char} (ends : Ends r) : r ≠ '(' :: tail := by
  rintro rfl
  simp [Ends] at ends

/-- The text of a tree: a run of plain characters and what follows it. -/
inductive Printed : Expr → List Char → List Char → Prop where
  | literal {value : Float} :
      value.isFinite = true → Printed (.literal value) (Decimal.plain value).toList []
  | var {name : String} : IsLettered name → Printed (.var name) name.toList []
  | constant (c : Constant) : Printed (.constant c) c.name.toList []
  | binary (op : Operator) {l r : Expr} {run rest run' rest' : List Char} :
      Printed l run rest → Printed r run' rest' →
      Printed (.binary op l r) []
        ('(' :: (run ++ (rest ++ ' ' :: op.glyph :: ' ' :: (run' ++ (rest' ++ [')'])))))
  | apply {f : Function} {u : Expr} {run rest : List Char} :
      f ≠ .cot → f ≠ .coth → f ≠ .acot → Printed u run rest →
      Printed (.apply f u) f.name.toList ('(' :: (run ++ (rest ++ [')'])))
  | coth {u : Expr} {run rest : List Char} :
      Printed u run rest →
      Printed (.apply .coth u) []
        ('(' :: '(' :: 'e' :: '^' :: ['(', '2', ' ', '*', ' '] ++ (run ++ (rest ++
          ')' :: [' ', '+', ' ', '1', ')', ' ', '/', ' ', '(', 'e', '^', '(', '2', ' ', '*', ' '] ++
            (run ++ (rest ++ ')' :: [' ', '-', ' ', '1', ')', ')'])))))

namespace Printed

variable {a b e : Expr} {run rest run' rest' r s : List Char}

theorem canonical_eq (printed : Printed e run rest) : e.canonical.toList = run ++ rest := by
  induction printed with
  | literal finite =>
    rw [isFinite_iff] at finite
    rw [Expr.canonical, Expr.canonicalWith, canonicalLiteral, isNaN_eq, isInf_eq,
      decide_eq_false (Nat.lt_asymm finite), decide_eq_false (Nat.ne_of_lt finite)]
    simp
  | var => simp [Expr.canonical, Expr.canonicalWith]
  | constant => simp [Expr.canonical, Expr.canonicalWith]
  | binary op _ _ left right => simp [Expr.canonical_binary, left, right]
  | apply notCot notCoth notAcot _ argument =>
    rw [Expr.canonical_apply, Function.canonical_eq notCot notCoth notAcot]
    simp [argument]
  | @coth u _ _ _ argument =>
    have text : (Expr.apply .coth u).canonical =
      "((e^(2 * " ++ u.canonical ++ ") + 1) / (e^(2 * " ++ u.canonical ++ ") - 1))" := rfl
    simp [text, argument]

theorem plain (printed : Printed e run rest) : ∀ c ∈ run, isPlain c = true := by
  cases printed with
  | literal finite => exact fun c => isPlain_of_mem_plain finite
  | var lettered => exact fun c membership => isPlain_of_isLetter (lettered.letters c membership)
  | constant c => exact fun d membership => isPlain_of_isLetter (c.letters_name d membership)
  | @apply f => exact fun d membership => isPlain_of_isLetter (f.letters_name d membership)
  | binary => simp
  | coth => simp

theorem bracketed (printed : Printed e run rest) : rest = [] ∨ ∃ tail, rest = '(' :: tail := by
  cases printed with
  | literal | var | constant => exact .inl rfl
  | binary | apply | coth => exact .inr ⟨_, rfl⟩

/-- A longer text says where the run ends. -/
theorem run_eq (printed : Printed e run rest) (ends : Ends r) :
    (run ++ (rest ++ r)).takeWhile isPlain = run ∧
      (run ++ (rest ++ r)).dropWhile isPlain = rest ++ r := by
  refine span_of_head? printed.plain ?_
  rcases printed.bracketed with rfl | ⟨tail, rfl⟩
  · intro c follows
    rcases ends c follows with rfl | rfl <;> decide
  · simp [isPlain, isDigit, isLetter]

theorem split (first : Printed a run rest) (second : Printed b run' rest') (ends : Ends r)
    (ends' : Ends s) (same : run ++ (rest ++ r) = run' ++ (rest' ++ s)) :
    run = run' ∧ rest ++ r = rest' ++ s := by
  obtain ⟨firstRun, firstRest⟩ := first.run_eq ends
  obtain ⟨secondRun, secondRest⟩ := second.run_eq ends'
  rw [same] at firstRun firstRest
  exact ⟨firstRun.symm.trans secondRun, firstRest.symm.trans secondRest⟩

/-- No text begins as the brackets of `coth` do. -/
theorem ne_exponential (printed : Printed e run rest) (ends : Ends r) (tail : List Char) :
    run ++ (rest ++ r) ≠ '(' :: 'e' :: '^' :: tail := by
  intro same
  obtain ⟨runs, rests⟩ := printed.run_eq ends
  rw [same] at runs rests
  change [] = run at runs
  change '(' :: 'e' :: '^' :: tail = rest ++ r at rests
  cases printed with
  | literal | var | constant => exact absurd rests.symm ends.ne_opening
  | binary op left right =>
    obtain ⟨-, circumflex⟩ := left.run_eq (.blank _)
    simp only [List.cons_append, List.append_assoc, List.cons.injEq, true_and] at rests
    -- The left operand has the run `e`, and neither a bracket nor a blank is a circumflex.
    rw [← rests] at circumflex
    change '^' :: tail = _ at circumflex
    rcases left.bracketed with rfl | ⟨inside, rfl⟩ <;> simp at circumflex
  | @apply f => exact absurd runs.symm f.name_ne_nil
  | coth => simp at rests

theorem leaf_eq (first : Printed a run rest) (second : Printed b run' rest') (leaf : rest = [])
    (leaf' : rest' = []) (runs : run = run') : a = b := by
  cases first with
  | literal finite =>
    cases second with
    | literal finite' =>
      have read := parse_plain finite
      rw [String.toList_inj.1 runs, parse_plain finite'] at read
      cases read
      rfl
    | var lettered => exact absurd runs (plain_ne_letters finite lettered.letters)
    | constant c => exact absurd runs (plain_ne_letters finite c.letters_name)
    | binary | apply | coth => cases leaf'
  | var lettered =>
    cases second with
    | literal finite => exact absurd runs.symm (plain_ne_letters finite lettered.letters)
    | var => rw [String.toList_inj.1 runs]
    | constant c => exact absurd (String.toList_inj.1 runs) (lettered.noConstant c)
    | binary | apply | coth => cases leaf'
  | constant c =>
    cases second with
    | literal finite => exact absurd runs.symm (plain_ne_letters finite c.letters_name)
    | var lettered => exact absurd (String.toList_inj.1 runs).symm (lettered.noConstant c)
    | constant c' => cases c <;> cases c' <;> first | rfl | cases runs
    | binary | apply | coth => cases leaf'
  | binary | apply | coth => cases leaf

theorem leaf_unique (first : Printed a run []) (second : Printed b run' rest') (ends : Ends r)
    (ends' : Ends s) (same : run ++ ([] ++ r) = run' ++ (rest' ++ s)) : a = b ∧ r = s := by
  obtain ⟨runs, rests⟩ := first.split second ends ends' same
  rcases second.bracketed with rfl | ⟨tail, rfl⟩
  · exact ⟨leaf_eq first second rfl rfl runs, rests⟩
  · exact absurd rests ends.ne_opening

/-- The text of a tree that stands in a longer text determines the tree. -/
theorem unique (first : Printed a run rest) (second : Printed b run' rest') (ends : Ends r)
    (ends' : Ends s) (same : run ++ (rest ++ r) = run' ++ (rest' ++ s)) : a = b ∧ r = s := by
  -- An operand is followed by the rest of its operation, so both remainders are general.
  induction first generalizing b run' rest' r s with
  | literal finite => exact leaf_unique (.literal finite) second ends ends' same
  | var lettered => exact leaf_unique (.var lettered) second ends ends' same
  | constant c => exact leaf_unique (.constant c) second ends ends' same
  | binary op left right leftUnique rightUnique =>
    obtain ⟨runs, rests⟩ := split (.binary op left right) second ends ends' same
    cases second with
    | literal | var | constant => exact absurd rests.symm ends'.ne_opening
    | binary op' left' right' =>
      simp only [List.cons_append, List.append_assoc, List.cons.injEq, true_and] at rests
      obtain ⟨rfl, operators⟩ := leftUnique left' (.blank _) (.blank _) rests
      simp only [List.cons.injEq, true_and] at operators
      obtain ⟨glyphs, operands⟩ := operators
      obtain ⟨rfl, closings⟩ := rightUnique right' (.closing _) (.closing _) operands
      obtain rfl := Operator.glyph_injective glyphs
      exact ⟨rfl, by simpa using closings⟩
    | @apply f => exact absurd runs.symm f.name_ne_nil
    | coth argument' =>
      -- Both begin with a bracket, and the left operand would have to go on like `coth`.
      simp only [List.cons_append, List.append_assoc, List.cons.injEq, true_and] at rests
      exact absurd rests (left.ne_exponential (.blank _) _)
  | @apply f u _ _ notCot notCoth notAcot argument argumentUnique =>
    obtain ⟨runs, rests⟩ := split (.apply notCot notCoth notAcot argument) second ends ends' same
    cases second with
    | literal | var | constant => exact absurd rests.symm ends'.ne_opening
    | binary | coth => exact absurd runs f.name_ne_nil
    | apply _ _ _ argument' =>
      obtain rfl := Function.name_injective (String.toList_inj.1 runs)
      simp only [List.cons_append, List.append_assoc, List.cons.injEq, true_and] at rests
      obtain ⟨rfl, closings⟩ := argumentUnique argument' (.closing _) (.closing _) rests
      exact ⟨rfl, by simpa using closings⟩
  | coth argument argumentUnique =>
    obtain ⟨runs, rests⟩ := split (.coth argument) second ends ends' same
    cases second with
    | literal | var | constant => exact absurd rests.symm ends'.ne_opening
    | binary op' left' right' =>
      simp only [List.cons_append, List.append_assoc, List.cons.injEq, true_and] at rests
      exact absurd rests.symm (left'.ne_exponential (.blank _) _)
    | @apply f => exact absurd runs.symm f.name_ne_nil
    | coth argument' =>
      simp only [List.cons_append, List.nil_append, List.append_assoc, List.cons.injEq,
        true_and] at rests
      -- The text has the argument twice: the first determines it, the second what follows.
      obtain ⟨rfl, between⟩ := argumentUnique argument' (.closing _) (.closing _) rests
      simp only [List.cons.injEq, true_and] at between
      obtain ⟨-, closings⟩ := argumentUnique argument' (.closing _) (.closing _) between
      exact ⟨rfl, by simpa using closings⟩

end Printed

/-! ## Trees that are written out -/

theorem exists_printed_expandLiteral (value : Float) :
    ∃ run rest, Printed (expandLiteral value) run rest := by
  have zero : Printed .zero _ _ := .literal isFinite_zero
  have one : Printed .one _ _ := .literal isFinite_one
  have negativeOne : Printed .negativeOne _ _ := .literal isFinite_negativeOne
  unfold expandLiteral
  split
  next => exact ⟨_, _, .binary .divide zero zero⟩
  next defined =>
    split
    next =>
      split
      next => exact ⟨_, _, .binary .divide negativeOne zero⟩
      next => exact ⟨_, _, .binary .divide one zero⟩
    next bounded => exact ⟨_, _, .literal (isFinite_of_not defined bounded)⟩

theorem Function.exists_printed_writeOut (f : Function) {u : Expr} {run rest : List Char}
    (argument : Printed u run rest) : ∃ run' rest', Printed (f.writeOut u) run' rest' := by
  have one : Printed .one _ _ := .literal isFinite_one
  have two : Printed .two _ _ := .literal isFinite_two
  cases f with
  | cot =>
    have tangent : Printed (.apply .tan u) _ _ :=
      .apply (by decide) (by decide) (by decide) argument
    exact ⟨_, _, .binary .divide one tangent⟩
  | acot =>
    have arc : Printed (.apply .atan u) _ _ := .apply (by decide) (by decide) (by decide) argument
    exact ⟨_, _, .binary .minus (.binary .divide (.constant .pi) two) arc⟩
  | coth => exact ⟨_, _, .coth argument⟩
  | _ => exact ⟨_, _, .apply (by decide) (by decide) (by decide) argument⟩

namespace Expr

variable {a b e : Expr}

theorem exists_printed_writeOut (lettered : e.Lettered) :
    ∃ run rest, Printed e.writeOut run rest := by
  induction e with
  | literal value => exact exists_printed_expandLiteral value
  | var name => exact ⟨_, _, .var (lettered name (by simp [occurrences]))⟩
  | constant c => exact ⟨_, _, .constant c⟩
  | binary op l r left right =>
    obtain ⟨_, _, leftPrinted⟩ := left lettered.operands.1
    obtain ⟨_, _, rightPrinted⟩ := right lettered.operands.2
    exact ⟨_, _, .binary op leftPrinted rightPrinted⟩
  | apply f u argument =>
    obtain ⟨_, _, printed⟩ := argument lettered
    exact f.exists_printed_writeOut printed

/-- Trees with the same text are the same tree when they are written out. -/
theorem writeOut_eq_of_sameAs (lettered : a.Lettered) (lettered' : b.Lettered)
    (same : a.sameAs b = true) : a.writeOut = b.writeOut := by
  obtain ⟨run, rest, printed⟩ := exists_printed_writeOut lettered
  obtain ⟨run', rest', printed'⟩ := exists_printed_writeOut lettered'
  have texts : a.writeOut.canonical.toList = b.writeOut.canonical.toList := by
    rw [canonical_writeOut, canonical_writeOut, eq_of_beq same]
  rw [printed.canonical_eq, printed'.canonical_eq] at texts
  have ends : Ends [] := by simp [Ends]
  exact (printed.unique printed' ends ends (by simpa using texts)).1

theorem eval_eq_of_sameAs {A : Arithmetic Float} {valueOf : String → Float} (rounded : A.IsRounded)
    (lettered : a.Lettered) (lettered' : b.Lettered) (same : a.sameAs b = true) :
    a.eval A valueOf = b.eval A valueOf := by
  rw [← eval_writeOut rounded a, ← eval_writeOut rounded b,
    writeOut_eq_of_sameAs lettered lettered' same]

/-- Trees with the same text have the same value. -/
theorem value_eq_of_sameAs (lettered : a.Lettered) (lettered' : b.Lettered)
    (same : a.sameAs b = true) (bindings : Bindings) : a.value bindings = b.value bindings :=
  eval_eq_of_sameAs Arithmetic.isRounded_machine lettered lettered' same

/-- A cotangent and an infinite literal, beside the quotients that they are written as. -/
theorem value_eq_of_sameAs_cot_minus_infinity :
    let a := minus (apply .cot (var "x")) (literal (1 / 0))
    let b := minus (divide one (apply .tan (var "x"))) (divide one zero)
    let bindings := Bindings.empty.insert "x" 2
    a.Lettered ∧ b.Lettered ∧ a.sameAs b = true ∧ a ≠ b ∧ a.value bindings = b.value bindings := by
  intro a b bindings
  have lettered : a.Lettered := by decide
  have lettered' : b.Lettered := by decide
  have same : a.sameAs b = true := by decide +kernel
  have different : a ≠ b := by simp [a, b]
  exact ⟨lettered, lettered', same, different,
    value_eq_of_sameAs lettered lettered' same bindings⟩

end Expr

end Formulae
