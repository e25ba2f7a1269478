import Formulae.Parser.Error
import Formulae.Parser.Word
import Formulae.Token.Stream

/-!
# The grammar of formulas

An expression is read from a stream of tokens by this grammar, the loosest operators first.

* Expression: terms with `+` or `-` between them.
* Term: powers with `*` or `/` between them, or with nothing between them where the next power
  begins with a number, a text or an opening bracket.
* Power: a factor, or a factor, `^` and a power.
* Factor: `-` and a factor; an expression in brackets of one family; a number; or a text, read as
  in `Formulae.Parser.Word`.

Sums and products group to the left and powers to the right.

Every power and every factor that is being read is one level of nesting.  Their number at any time
is limited.  `power` and `factor` recurse on the number of levels that are left, and `chain` reads
the operands of an expression or a term one after the other.

Each rule uses up a part of its stream.  The part is measured in `weight`, one for each token and
one for each letter, and not in tokens, because the last letter of a text may be put back as a
text of its own.
-/

namespace Formulae

/-! ## The weight of a stream -/

/-- The weight of a token. -/
def Token.weight (t : Token) : Nat := 1 + (t.letters?.getD "").toList.length

theorem Token.weight_pos (t : Token) : 0 < t.weight := by
  unfold Token.weight
  omega

/-- The weight of the tokens before the final one. -/
def Stream.weight (s : Stream) : Nat := s.front.foldr (fun t total => t.weight + total) 0

namespace Stream

theorem weight_next_add (s : Stream) (unfinished : s.peek.kind ≠ .eof) :
    s.next.weight + s.peek.weight = s.weight := by
  cases shape : s.front with
  | nil =>
    have last : s.peek.kind = .eof := by simp [peek, shape, s.final_kind]
    exact absurd last unfinished
  | cons t ts => simp [weight, next, peek, shape, Nat.add_comm]

theorem weight_next_lt (s : Stream) (unfinished : s.peek.kind ≠ .eof) :
    s.next.weight < s.weight := by
  have split := s.weight_next_add unfinished
  have positive := s.peek.weight_pos
  omega

theorem weight_next_le (s : Stream) : s.next.weight ≤ s.weight := by
  cases shape : s.front <;> simp [weight, next, shape]

theorem weight_prepend_singleton (s : Stream) (t : Token) :
    (s.prepend [t]).weight = t.weight + s.weight := by
  simp [weight, prepend]

end Stream

/-! ## Rules -/

/-- What a rule has read, and what it leaves. -/
structure Parsed (s : Stream) where
  /-- The expression. -/
  tree : Expr
  /-- The tokens after it. -/
  rest : Stream
  /-- Something was read. -/
  shorter : rest.weight < s.weight

/-- A rule of the grammar. -/
abbrev Rule := (s : Stream) → Except ParseError (Parsed s)

/-- Requires the next token to be of a kind. -/
def expect (expected : Kind) (s : Stream) : Except ParseError (PLift (s.peek.kind = expected)) :=
  if h : s.peek.kind = expected then .ok ⟨h⟩
  else .error (.unexpected s.peek.kind expected s.peek.position)

/-- Operators that a token may announce, and whether the token is used up. -/
abbrev Announced := Kind → Option (Operator × Bool)

/-- The operators between terms. -/
def betweenTerms : Announced
  | .plus => some (.plus, true)
  | .minus => some (.minus, true)
  | _ => none

/-- The operators between powers.  A token that begins a power announces a product. -/
def betweenPowers : Announced
  | .times => some (.times, true)
  | .divide => some (.divide, true)
  | .number | .text | .openBracket => some (.times, false)
  | _ => none

/-- The operands that follow a first one, grouped to the left. -/
def extend (announced : Announced) (operand : Rule) (left : Expr) (s : Stream) :
    Except ParseError { result : Expr × Stream // result.2.weight ≤ s.weight } :=
  match announced s.peek.kind with
  | none => .ok ⟨(left, s), Nat.le_refl _⟩
  | some (op, consumes) => do
    let start := if consumes then s.next else s
    have started : start.weight ≤ s.weight := by
      dsimp only [start]
      split
      · exact s.weight_next_le
      · exact Nat.le_refl _
    let right ← operand start
    have shorter := right.shorter
    let result ← extend announced operand (.binary op left right.tree) right.rest
    .ok ⟨result.1, Nat.le_trans result.2 (Nat.le_of_lt (Nat.lt_of_lt_of_le shorter started))⟩
termination_by s.weight

/-- Operands with operators of one level between them. -/
def chain (announced : Announced) (operand : Rule) : Rule := fun s => do
  let first ← operand s
  let result ← extend announced operand first.tree first.rest
  .ok ⟨result.1.1, result.1.2, Nat.lt_of_le_of_lt result.2 first.shorter⟩

/-- An expression whose powers are read by a given rule. -/
def expressionOf (power : Rule) : Rule := chain betweenTerms (chain betweenPowers power)

/-! ## Powers and factors -/

mutual

/-- A power, with a number of levels left. -/
def power (limit : Nat) : Nat → Rule
  | 0, s => .error (.tooDeep limit s.peek.position)
  | levels + 1, s => do
    let base ← factor limit levels s
    if base.rest.peek.kind = .power then
      let exponent ← power limit levels base.rest.next
      .ok ⟨.power base.tree exponent.tree, exponent.rest, by
        have := base.shorter
        have := exponent.shorter
        have := base.rest.weight_next_le
        omega⟩
    else .ok base

/-- A factor, with a number of levels left. -/
def factor (limit : Nat) : Nat → Rule
  | 0, s => .error (.tooDeep limit s.peek.position)
  | levels + 1, s =>
    match kind : s.peek.kind with
    | .text =>
      have used := s.weight_next_add (by simp [kind])
      have positive := s.peek.weight_pos
      match word : Word.read (s.peek.letters?.getD "") with
      | .constant c => .ok ⟨.constant c, s.next, by omega⟩
      | .function f => do
        let argument ← factor limit levels s.next
        .ok ⟨.apply f argument.tree, argument.rest, by
          have := argument.shorter
          omega⟩
      | .applied f c => .ok ⟨.apply f (.constant c), s.next, by omega⟩
      | .glued f offset letter => do
        let last := Token.text (s.peek.position + offset) (String.singleton letter)
        let argument ← factor limit levels (s.next.prepend [last])
        .ok ⟨.apply f argument.tree, argument.rest, by
          have := argument.shorter
          have := s.next.weight_prepend_singleton last
          have := Word.offset_of_read_glued word
          have : last.weight = 2 := by simp [last, Token.weight, Token.text, Token.letters?]
          have : s.peek.weight = 1 + (s.peek.letters?.getD "").toList.length := rfl
          omega⟩
      | .var name => .ok ⟨.var name, s.next, by omega⟩
    | .minus => do
      let operand ← factor limit levels s.next
      .ok ⟨.negate operand.tree, operand.rest, by
        have := operand.shorter
        have := s.weight_next_le
        omega⟩
    | .openBracket => do
      let inside ← expressionOf (power limit levels) s.next
      let _ ← expect .closeBracket inside.rest
      let opening := s.peek
      let closing := inside.rest.peek
      if opening.family? = closing.family? then
        .ok ⟨inside.tree, inside.rest.next, by
          have := inside.shorter
          have := s.weight_next_le
          have := inside.rest.weight_next_le
          omega⟩
      else
        .error (.mismatch (opening.glyph?.getD '?') (closing.glyph?.getD '?') closing.position)
    | _ => do
      let found ← expect .number s
      .ok ⟨.literal (s.peek.value?.getD 0), s.next, s.weight_next_lt (by simp [found.down])⟩

end

/-- An expression, with a number of levels left. -/
def expression (limit levels : Nat) : Rule := expressionOf (power limit levels)

/-! ## Formulas -/

/-- The number of powers and factors that may be open at once. -/
def maxDepth : Nat := 512

/-- The expression that a stream spells from its start to its end, with a limit of nesting. -/
def Stream.parseWithin (limit : Nat) (s : Stream) : Except ParseError Expr := do
  let whole ← expression limit limit s
  let _ ← expect .eof whole.rest
  .ok whole.tree

/-- The expression that a stream spells. -/
def Stream.parse (s : Stream) : Except ParseError Expr := s.parseWithin maxDepth

/-- The expression that a text spells. -/
def parse (source : String) : Except ParseError Expr :=
  match tokenize source with
  | .ok tokens => (Stream.ofList tokens).parse
  | .error cause => .error (.lexing cause)

end Formulae
