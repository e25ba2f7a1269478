import Formulae.Expr.Canonical
import Formulae.Expr.Variables
import Formulae.Proofs.Canonical.Spelling

/-!
# Reading canonical text back

Canonical text is read back as the tree that it was written from, with the three functions and the
literals that have no name or numeral written out (`expand`).  It is read back unless it nests more
levels than the parser allows, and `cost` counts these levels on the tree.

Every canonical text is a factor, because operations have brackets of their own.  So the induction
over the tree (`Expr.writes_canonical`) needs no more than the text of a factor for each subtree.
-/

namespace Formulae

open Formulae.Text (isDigit isLetter)
open Formulae.Number (code isNegative infinityCode ofCode)
open Formulae.Decimal (numeral ofDigits)

/-! ## What is read back -/

/-- A literal as its text is read: a division by zero stands for a value without a numeral. -/
def expandLiteral (value : Float) : Expr :=
  if value.isNaN then .divide .zero .zero
  else if value.isInf then (if value < 0 then .divide .negativeOne .zero else .divide .one .zero)
  else .literal value

/-- An application as its text is read: three functions are written out in others. -/
def Function.expand (f : Function) (u : Expr) : Expr :=
  match f with
  | .cot => .divide .one (.apply .tan u)
  | .coth =>
    .divide (.plus (.power (.constant .euler) (.times .two u)) .one)
      (.minus (.power (.constant .euler) (.times .two u)) .one)
  | .acot => .minus (.divide (.constant .pi) .two) (.apply .atan u)
  | f => .apply f u

/-- The levels that the text of a literal nests. -/
def literalCost (value : Float) : Nat :=
  if value.isNaN then 4
  else if value.isInf then (if value < 0 then 5 else 4)
  else if isNegative value then 3 else 2

/-- The levels that the text of an application nests, from those of its argument. -/
def Function.cost (f : Function) (argument : Nat) : Nat :=
  match f with
  | .cot => 5 + argument
  | .coth => 7 + argument
  | .acot => 5 + argument
  | _ => 3 + argument

/-- The levels that the text of an operation nests, from those of its operands. -/
def Operator.cost (op : Operator) (left right : Nat) : Nat :=
  match op with
  | .power => max (2 + left) (3 + right)
  | _ => 2 + max left right

namespace Expr

/-- The tree that the canonical text is read as. -/
def expand : Expr → Expr
  | literal value => expandLiteral value
  | var name => var name
  | constant c => constant c
  | binary op l r => binary op l.expand r.expand
  | apply f u => f.expand u.expand

/-- The levels that the canonical text nests. -/
def cost : Expr → Nat
  | literal value => literalCost value
  | var _ => 2
  | constant _ => 2
  | binary .power l r => max (2 + l.cost) (3 + r.cost)
  | binary _ l r => 2 + max l.cost r.cost
  | apply f u => f.cost u.cost

theorem cost_binary (op : Operator) (l r : Expr) :
    (binary op l r).cost = op.cost l.cost r.cost := by
  cases op <;> rfl

/-- Every literal is finite, and `cot`, `coth` and `acot` do not occur. -/
def IsPlain : Expr → Prop
  | literal value => value.isFinite = true
  | var _ => True
  | constant _ => True
  | binary _ l r => l.IsPlain ∧ r.IsPlain
  | apply f u => f ≠ .cot ∧ f ≠ .coth ∧ f ≠ .acot ∧ u.IsPlain

end Expr

/-- The name is a run of letters that is read as a variable. -/
structure IsVariableName (name : String) : Prop where
  /-- There is a letter. -/
  nonempty : name.toList ≠ []
  /-- Letters only. -/
  letters : ∀ c ∈ name.toList, isLetter c = true
  /-- No other reading fits. -/
  reads : Word.read name = .var name

instance (name : String) : Decidable (IsVariableName name) :=
  decidable_of_iff
    (name.toList ≠ [] ∧ name.toList.all isLetter = true ∧ Word.read name = .var name)
    ⟨fun ⟨nonempty, letters, reads⟩ => ⟨nonempty, List.all_eq_true.1 letters, reads⟩,
      fun ⟨nonempty, letters, reads⟩ => ⟨nonempty, List.all_eq_true.2 letters, reads⟩⟩

/-- Every variable of the tree can be read. -/
def Expr.Named (e : Expr) : Prop := ∀ name ∈ e.occurrences, IsVariableName name

instance (e : Expr) : Decidable e.Named :=
  inferInstanceAs (Decidable (∀ name ∈ e.occurrences, IsVariableName name))

theorem Expr.IsPlain.expand_eq {e : Expr} (plain : e.IsPlain) : e.expand = e := by
  induction e with
  | literal value =>
    have finite : code value < infinityCode := by
      simpa [IsPlain, Number.isFinite_eq] using plain
    rw [expand, expandLiteral, Number.isNaN_eq, Number.isInf_eq,
      decide_eq_false (Nat.lt_asymm finite), decide_eq_false (Nat.ne_of_lt finite)]
    rfl
  | var name => rfl
  | constant c => rfl
  | binary op l r left right => rw [expand, left plain.1, right plain.2]
  | apply f u argument =>
    obtain ⟨notCot, notCoth, notAcot, plainArgument⟩ := plain
    rw [expand, argument plainArgument, Function.expand]
    · exact notCot
    · exact notCoth
    · exact notAcot

/-! ## Texts of subtrees -/

/-- The text is a factor that nests `n` levels when it stands as an expression. -/
def Writes (cs : List Char) (n : Nat) (e : Expr) : Prop := ∃ m, n = m + 1 ∧ Spells cs .factor m e

namespace Writes

variable {m n : Nat} {cs ds : List Char} {e l r u : Expr}

theorem of_spells (factor : Spells cs .factor n e) : Writes cs (n + 1) e := ⟨n, rfl, factor⟩

theorem term (writes : Writes cs n e) : Spells cs .term n e := by
  obtain ⟨m, rfl, factor⟩ := writes
  exact factor.power.term

theorem bracketed (inside : Spells cs .expression n e) : Writes ('(' :: (cs ++ [')'])) (2 + n) e :=
  ⟨n + 1, by omega, inside.bracketed⟩

/-- An operation between brackets. -/
theorem binary (op : Operator) (notPower : op ≠ .power) (left : Writes cs m l)
    (right : Writes ds n r) :
    Writes ('(' :: (cs ++ ([' ', op.glyph, ' '] ++ ds) ++ [')'])) (2 + max m n)
      (.binary op l r) := by
  have operand : Spells ds .power n r := by
    obtain ⟨k, rfl, factor⟩ := right
    exact factor.power
  cases op with
  | plus => exact bracketed (left.term.expression.sum (.spaced rfl) .plus right.term)
  | minus => exact bracketed (left.term.expression.sum (.spaced rfl) .minus right.term)
  | times => exact bracketed (left.term.product (.spaced rfl) .times operand).expression
  | divide => exact bracketed (left.term.product (.spaced rfl) .divide operand).expression
  | power => exact absurd rfl notPower

/-- A power, with or without blanks. -/
theorem raised {sep : List Char} (separates : Separates sep .power) (base : Writes cs m l)
    (exponent : Writes ds n r) :
    Spells (cs ++ (sep ++ ds)) .term (max m (n + 1)) (.power l r) := by
  obtain ⟨i, rfl, baseFactor⟩ := base
  obtain ⟨j, rfl, exponentFactor⟩ := exponent
  have raised := (baseFactor.raised separates exponentFactor.power).term
  rwa [show max i (j + 1) + 1 = max (i + 1) (j + 1 + 1) by omega] at raised

theorem power (base : Writes cs m l) (exponent : Writes ds n r) :
    Writes ('(' :: (cs ++ ([' ', '^', ' '] ++ ds) ++ [')'])) (max (2 + m) (3 + n))
      (.power l r) := by
  have writes := bracketed (base.raised (.spaced (c := '^') rfl) exponent).expression
  rwa [show 2 + max m (n + 1) = max (2 + m) (3 + n) by omega] at writes

/-- A function with its argument between brackets. -/
theorem apply (f : Function) (argument : Writes cs n u) :
    Writes (f.name.toList ++ '(' :: (cs ++ [')'])) (3 + n) (.apply f u) := by
  have breaks : Breaks ('(' :: (cs ++ [')'])) := .cons (by decide) (by decide) (by decide)
  exact ⟨n + 2, by omega, .function f breaks argument.term.expression.bracketed⟩

end Writes

/-! ## Literals -/

/-- The text of a finite float, read back bit by bit. -/
theorem writes_plain {x : Float} (finite : code x < infinityCode) :
    Writes (Decimal.plain x).toList (if isNegative x then 3 else 2) (.literal x) := by
  obtain ⟨whole, fraction, text, nonempty, digits, value⟩ := Decimal.exists_toList_plain finite
  have magnitude := Spells.number nonempty digits
  have signed := Number.ofCode_code finite.le
  rw [value] at magnitude
  rw [text]
  cases negative : isNegative x with
  | false =>
    rw [negative] at signed
    rw [signed] at magnitude
    simpa using Writes.of_spells magnitude
  | true =>
    have negated := magnitude.negated
    rw [Expr.negate, Number.neg_ofCode finite.le, Bool.not_false, ← negative, signed] at negated
    simpa using Writes.of_spells negated

/-- The text of a digit that stands for itself. -/
theorem writes_digit {d : Char} (digit : isDigit d = true) {x : Float}
    (value : ofDigits [d] [] = x) : Writes [d] 2 (.literal x) := by
  rw [← value]
  exact .of_spells (.number (by simp) (show ∀ c ∈ [d] ++ [], isDigit c = true by simpa))

theorem ofDigits_digit :
    ofDigits ['0'] [] = 0 ∧ ofDigits ['1'] [] = 1 ∧ ofDigits ['2'] [] = 2 := by
  decide +kernel

theorem writes_zero : Writes ['0'] 2 .zero := writes_digit (by decide) ofDigits_digit.1

theorem writes_one : Writes ['1'] 2 .one := writes_digit (by decide) ofDigits_digit.2.1

theorem writes_two : Writes ['2'] 2 .two := writes_digit (by decide) ofDigits_digit.2.2

theorem writes_negativeOne : Writes ['-', '1'] 3 .negativeOne := by
  obtain ⟨m, levels, factor⟩ := writes_one
  exact ⟨m + 1, by omega, factor.negated⟩

theorem writes_literal (value : Float) :
    Writes (canonicalLiteral value).toList (literalCost value) (expandLiteral value) := by
  unfold canonicalLiteral literalCost expandLiteral
  split
  next => exact .binary .divide (by decide) writes_zero writes_zero
  next defined =>
    split
    next =>
      split
      next => exact .binary .divide (by decide) writes_negativeOne writes_zero
      next => exact .binary .divide (by decide) writes_one writes_zero
    next finite =>
      refine writes_plain ?_
      simp only [Number.isNaN_eq, Number.isInf_eq, decide_eq_true_eq] at defined finite
      omega

/-! ## Trees -/

section

variable {text : String} {n : Nat} {u : Expr}

theorem Writes.cot (least : 2 ≤ n) (argument : Writes text.toList n u) :
    Writes (Function.canonical .cot text).toList (5 + n) (Function.expand .cot u) := by
  have writes := binary .divide (by decide) writes_one (.apply .tan argument)
  rw [show 2 + max 2 (3 + n) = 5 + n by omega] at writes
  rw [show Function.canonical .cot text = "(1 / tan(" ++ text ++ "))" from rfl]
  simpa [Function.expand, Function.name, Operator.glyph] using writes

theorem Writes.acot (least : 2 ≤ n) (argument : Writes text.toList n u) :
    Writes (Function.canonical .acot text).toList (5 + n) (Function.expand .acot u) := by
  have quarter := binary .divide (by decide) (.of_spells (.constant .pi)) writes_two
  have writes := binary .minus (by decide) quarter (.apply .atan argument)
  rw [show 2 + max (2 + max (1 + 1) 2) (3 + n) = 5 + n by omega] at writes
  rw [show Function.canonical .acot text = "((PI / 2) - atan(" ++ text ++ "))" from rfl]
  simpa [Function.expand, Function.name, Constant.name, Operator.glyph] using writes

/-- The text of `e ^ (2 * u)`, without brackets around it. -/
theorem Writes.exponential (least : 2 ≤ n) (argument : Writes text.toList n u) :
    Spells ("e^(2 * " ++ text ++ ")").toList .expression (3 + n)
      (.power (.constant .euler) (.times .two u)) := by
  have doubled := binary .times (by decide) writes_two argument
  have raised := (raised (.glyph (c := '^') rfl) (.of_spells (.constant .euler)) doubled).expression
  rw [show max (1 + 1) (2 + max 2 n + 1) = 3 + n by omega] at raised
  simpa [Constant.name, Operator.glyph] using raised

theorem Writes.coth (least : 2 ≤ n) (argument : Writes text.toList n u) :
    Writes (Function.canonical .coth text).toList (7 + n) (Function.expand .coth u) := by
  have power := exponential least argument
  have sum := bracketed (power.sum (.spaced (c := '+') rfl) .plus writes_one.term)
  have difference := bracketed (power.sum (.spaced (c := '-') rfl) .minus writes_one.term)
  have writes := binary .divide (by decide) sum difference
  rw [show 2 + max (2 + max (3 + n) 2) (2 + max (3 + n) 2) = 7 + n by omega] at writes
  rw [show Function.canonical .coth text =
    "((e^(2 * " ++ text ++ ") + 1) / (e^(2 * " ++ text ++ ") - 1))" from rfl]
  simpa [Function.expand, Operator.glyph] using writes

/-- A function is written by its name, unless it is written out in others. -/
theorem Function.canonical_eq {f : Function} (notCot : f ≠ .cot) (notCoth : f ≠ .coth)
    (notAcot : f ≠ .acot) : f.canonical text = f.name ++ "(" ++ text ++ ")" := by
  cases f <;> first | rfl | contradiction

/-- The text of an application, with three functions written out in others. -/
theorem Function.writes_canonical (f : Function) (least : 2 ≤ n)
    (argument : Writes text.toList n u) :
    Writes (f.canonical text).toList (f.cost n) (f.expand u) := by
  cases f with
  | cot => exact .cot least argument
  | coth => exact .coth least argument
  | acot => exact .acot least argument
  | _ =>
    rw [canonical_eq (by decide) (by decide) (by decide)]
    simpa [cost, expand] using Writes.apply _ argument

end

theorem Expr.two_le_cost (e : Expr) : 2 ≤ e.cost := by
  induction e with
  | literal value =>
    rw [cost, literalCost]
    split
    next => decide
    next =>
      split
      next => split <;> decide
      next => split <;> decide
  | var name => rfl
  | constant c => rfl
  | binary op l r left right => cases op <;> simp only [cost] <;> omega
  | apply f u argument => cases f <;> simp only [cost, Function.cost] <;> omega

/-- The canonical text of a tree is read as the expanded tree. -/
theorem Expr.writes_canonical {e : Expr} (named : e.Named) :
    Writes e.canonical.toList e.cost e.expand := by
  induction e with
  | literal value => exact writes_literal value
  | var name =>
    obtain ⟨nonempty, letters, reads⟩ := named name (by simp [occurrences])
    exact .of_spells (.var nonempty letters reads)
  | constant c => exact .of_spells (.constant c)
  | binary op l r left right =>
    have leftWrites := left fun name occurs => named name (by simp [occurrences, occurs])
    have rightWrites := right fun name occurs => named name (by simp [occurrences, occurs])
    have text : (binary op l r).canonical.toList =
        '(' :: (l.canonical.toList ++ ([' ', op.glyph, ' '] ++ r.canonical.toList) ++ [')']) := by
      simp [canonical, canonicalWith]
    rw [text]
    cases op with
    | power => exact leftWrites.power rightWrites
    | plus | minus | times | divide => exact .binary _ (by decide) leftWrites rightWrites
  | apply f u argument => exact f.writes_canonical u.two_le_cost (argument named)

/-! ## Reading back -/

theorem Stream.front_ofList (ts : List Token) (position : Nat) :
    (Stream.ofList (ts ++ [Token.eof position])).front = ts := by
  simp [ofList, Token.eof, Token.bare]

/-- A text with a derivation as a whole is read if the levels that it nests are allowed. -/
theorem parse_of_spells {source : String} {n : Nat} {e : Expr}
    (spells : Spells source.toList .expression n e) : Within 512 n 512 (parse source) (.ok e) := by
  obtain ⟨ts, splits, derives⟩ := spells 0
  rw [parse_of_tokenize (tokenize_of_splits splits)]
  refine Stream.parseWithin_of_derives maxDepth ?_
  rwa [Stream.front_ofList]

namespace Expr

variable {e : Expr}

theorem parse_canonical_within (named : e.Named) :
    Within 512 e.cost 512 (parse e.canonical) (.ok e.expand) :=
  parse_of_spells (writes_canonical named).term.expression

theorem parse_canonical_iff (named : e.Named) :
    parse e.canonical = .ok e.expand ↔ e.cost ≤ 512 := by
  have within := parse_canonical_within named
  constructor
  · intro accepted
    by_contra deep
    obtain ⟨position, refused⟩ := within.lacking (by omega)
    rw [accepted] at refused
    cases refused
  · exact within.enough

/-- Canonical text is read back as the expanded tree or nests too many levels. -/
theorem parse_canonical (named : e.Named) :
    ((∃ position, parse e.canonical = .error (.tooDeep 512 position)) ∨
      parse e.canonical = .ok e.expand) ∧
    (parse e.canonical = .ok e.expand ↔ e.cost ≤ 512) ∧
    (e.IsPlain → e.expand = e ∧ (parse e.canonical = .ok e ↔ e.cost ≤ 512)) := by
  have accepted := parse_canonical_iff named
  refine ⟨?_, accepted, ?_⟩
  · by_cases enough : e.cost ≤ 512
    · exact Or.inr (accepted.2 enough)
    · exact Or.inl ((parse_canonical_within named).lacking (by omega))
  · intro plain
    rw [plain.expand_eq] at accepted
    exact ⟨plain.expand_eq, accepted⟩

/-- A negative zero is read back with its sign, and a cotangent is read back written out. -/
theorem parse_canonical_zero_times_and_cot :
    (times (literal (-0)) (var "x")).Named ∧ (times (literal (-0)) (var "x")).IsPlain ∧
    parse (times (literal (-0)) (var "x")).canonical = .ok (times (literal (-0)) (var "x")) ∧
    (apply .cot (var "x")).Named ∧
    parse (apply .cot (var "x")).canonical = .ok (divide one (apply .tan (var "x"))) := by
  have variableName : IsVariableName "x" := ⟨by decide, List.all_eq_true.1 (by decide), by decide⟩
  have product : (times (literal (-0)) (var "x")).Named := by
    intro name occurs
    obtain rfl : name = "x" := by simpa [occurrences] using occurs
    exact variableName
  have cotangent : (apply .cot (var "x")).Named := by
    intro name occurs
    obtain rfl : name = "x" := by simpa [occurrences] using occurs
    exact variableName
  have finite : (-0 : Float).isFinite = true := by decide
  have plain : (times (literal (-0)) (var "x")).IsPlain := ⟨finite, trivial⟩
  exact ⟨product, plain, ((parse_canonical product).2.2 plain).2.2 (by decide), cotangent,
    (parse_canonical cotangent).2.1.2 (by decide)⟩

end Expr

end Formulae
