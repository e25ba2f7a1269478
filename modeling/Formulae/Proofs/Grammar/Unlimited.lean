import Formulae.Proofs.Grammar.Rules

/-!
# Reading without a limit of nesting

The rules of the grammar once more, without a number of levels that are left.  They recurse on the
weight of the stream, so nothing stops them but the end of the input or a wrong token.

*Traces.*  Each power and each factor notes the position of the token in front of it when it is
begun, and notes its end, whether it was read or not.  The notes are balanced (`Balanced`), and a
`Traced` result carries the proof.

*Levels.*  `openAfter` counts the powers and factors that are open behind a part of the notes.
`overflow?` walks along the notes like a parser with a limit, and finds the place where it gives up.
Balanced notes leave the count as they found it, so the walk over two runs in a row is the walk over
the first and then, from the same count, over the second (`Balanced.overflow?_append`).

*Rules.*  `Unlimited.power` and `Unlimited.factor` differ from `power` and `factor` in the recursion
and in the notes only.  `extend` and `chain` ask their operand for streams below a weight, because the
recursion allows no others.  That each rule leaves a lighter stream is proved beside the ways to end
a tree: with the next token (`Parsed.token`), where a part of it ends (`Parsed.outer`) or behind a
closing bracket (`Parsed.enclosed`).
-/

namespace Formulae

/-! ## Traces -/

/-- What is noted about the nesting. -/
inductive Event where
  /-- A power or a factor is begun.  The token at the front of the stream is at this position. -/
  | opens (position : Nat)
  /-- The power or factor that was begun last is finished, read or not. -/
  | closes
  deriving DecidableEq, Repr

/-- What is begun is finished, in the opposite order. -/
inductive Balanced : List Event → Prop where
  | nil : Balanced []
  | append {es fs : List Event} : Balanced es → Balanced fs → Balanced (es ++ fs)
  | nested {es : List Event} (position : Nat) :
      Balanced es → Balanced (.opens position :: (es ++ [.closes]))

/-- A result with the notes that were made on the way to it. -/
structure Traced (α : Type) where
  /-- The notes, in order. -/
  events : List Event
  /-- The result. -/
  outcome : Except ParseError α
  balanced : Balanced events

namespace Traced

variable {α β : Type}

/-- A result on whose way nothing is noted. -/
def ofExcept (outcome : Except ParseError α) : Traced α := ⟨[], outcome, .nil⟩

/-- A result, and what it goes on with unless it is an error. -/
def bind (x : Traced α) (f : α → Traced β) : Traced β :=
  match x.outcome with
  | .ok a => ⟨x.events ++ (f a).events, (f a).outcome, x.balanced.append (f a).balanced⟩
  | .error cause => ⟨x.events, .error cause, x.balanced⟩

instance : Monad Traced where
  pure a := ofExcept (.ok a)
  bind := bind

/-- A power or a factor of a stream. -/
def nested (s : Stream) (x : Traced α) : Traced α :=
  ⟨.opens s.peek.position :: (x.events ++ [.closes]), x.outcome, x.balanced.nested _⟩

end Traced

/-! ## Levels -/

/-- What `step` makes of a state meets a condition behind every part of the notes, also the
empty part and the whole. -/
def Throughout {σ ε : Type} (condition : σ → Prop) (step : σ → ε → σ) (state : σ)
    (notes : List ε) : Prop :=
  ∀ part, part <+: notes → condition (part.foldl step state)

namespace Throughout

variable {σ ε : Type} {condition condition' : σ → Prop} {step : σ → ε → σ} {state : σ} {note : ε}
  {notes more : List ε}

theorem at_start (throughout : Throughout condition step state notes) : condition state :=
  throughout [] List.nil_prefix

theorem nil : Throughout condition step state [] ↔ condition state := by
  simp [Throughout]

theorem cons : Throughout condition step state (note :: notes) ↔
    condition state ∧ Throughout condition step (step state note) notes := by
  constructor
  · intro throughout
    refine ⟨throughout.at_start, ?_⟩
    intro part leading
    exact throughout (note :: part) (List.cons_prefix_cons.2 ⟨rfl, leading⟩)
  · rintro ⟨atStart, throughout⟩ part leading
    cases part with
    | nil => exact atStart
    | cons first part =>
      obtain ⟨rfl, behind⟩ := List.cons_prefix_cons.1 leading
      exact throughout part behind

theorem append : Throughout condition step state (notes ++ more) ↔
    Throughout condition step state notes ∧
      Throughout condition step (notes.foldl step state) more := by
  induction notes generalizing state with
  | nil =>
    rw [nil]
    exact ⟨fun throughout => ⟨throughout.at_start, throughout⟩, fun both => both.2⟩
  | cons note notes induction =>
    rw [List.cons_append, cons, cons, induction, and_assoc]
    rfl

theorem imp (throughout : Throughout condition step state notes)
    (weaker : ∀ state, condition state → condition' state) :
    Throughout condition' step state notes :=
  fun part leading => weaker _ (throughout part leading)

end Throughout

/-- The number of powers and factors that are open behind an event. -/
def Event.step : Nat → Event → Nat
  | depth, .opens _ => depth + 1
  | depth, .closes => depth - 1

/-- The number of powers and factors that are open behind events, if some are open before. -/
def openAfter (depth : Nat) (events : List Event) : Nat := events.foldl Event.step depth

/-- At no time are more than a number of powers and factors open. -/
def NestsWithin (limit depth : Nat) (events : List Event) : Prop :=
  Throughout (· ≤ limit) Event.step depth events

/-- The position at which a power or a factor is begun though as many as the limit are open. -/
def overflow? (limit : Nat) : Nat → List Event → Option Nat
  | _, [] => none
  | depth, .opens position :: events =>
    if depth < limit then overflow? limit (depth + 1) events else some position
  | depth, .closes :: events => overflow? limit (depth - 1) events

section

variable {limit depth position : Nat} {es fs events : List Event}

/-- Nothing overflows if and only if the nesting stays within the limit. -/
theorem overflow?_eq_none_iff (within : depth ≤ limit) :
    overflow? limit depth events = none ↔ NestsWithin limit depth events := by
  induction events generalizing depth with
  | nil => simpa [overflow?, NestsWithin, Throughout.nil] using within
  | cons event events induction =>
    rw [NestsWithin, Throughout.cons]
    cases event with
    | opens position =>
      rw [overflow?]
      by_cases room : depth < limit
      · rw [if_pos room, induction room]
        simp [within, Event.step, NestsWithin]
      · -- The begun rule is itself too deep.
        have tooDeep : ¬ Throughout (· ≤ limit) Event.step (depth + 1) events :=
          fun nests => room nests.at_start
        simp [room, tooDeep, Event.step]
    | closes =>
      rw [overflow?, induction (by omega)]
      simp [within, Event.step, NestsWithin]

/-- What overflows is the first power or factor that is begun with as many as the limit open. -/
theorem overflow?_eq_some (overflows : overflow? limit depth events = some position)
    (within : depth ≤ limit) :
    ∃ before after, events = before ++ .opens position :: after ∧
      NestsWithin limit depth before ∧ openAfter depth before = limit := by
  induction events generalizing depth with
  | nil => cases overflows
  | cons event events induction =>
    cases event with
    | opens begun =>
      rw [overflow?] at overflows
      split at overflows
      next room =>
        obtain ⟨before, after, rfl, nests, full⟩ := induction overflows room
        exact ⟨.opens begun :: before, after, rfl, Throughout.cons.2 ⟨within, nests⟩, full⟩
      next noRoom =>
        cases overflows
        have full : depth = limit := Nat.le_antisymm within (Nat.le_of_not_lt noRoom)
        exact ⟨[], events, rfl, Throughout.nil.2 within, full⟩
    | closes =>
      rw [overflow?] at overflows
      obtain ⟨before, after, rfl, nests, full⟩ := induction overflows (by omega)
      exact ⟨.closes :: before, after, rfl, Throughout.cons.2 ⟨within, nests⟩, full⟩

/-- Behind balanced events the walk goes on with the count that it came with. -/
theorem Balanced.overflow?_append (balanced : Balanced es) : ∀ depth fs,
    overflow? limit depth (es ++ fs) =
      (overflow? limit depth es).or (overflow? limit depth fs) := by
  induction balanced with
  | nil =>
    intro depth fs
    rfl
  | append _ _ first second =>
    intro depth fs
    rw [List.append_assoc, first, second, first, Option.or_assoc]
  | nested position _ inside =>
    intro depth fs
    rw [List.cons_append, List.append_assoc, overflow?, overflow?]
    split
    next =>
      rw [inside, inside, Option.or_assoc]
      rfl
    next => rfl

end

/-! ## What is left -/

section

variable {s t : Stream} {bound : Nat}

theorem Stream.unfinished {kind : Kind} (found : s.peek.kind = kind) (other : kind ≠ .eof) :
    s.peek.kind ≠ .eof := by
  rwa [found]

theorem Kind.text_ne_eof : Kind.text ≠ .eof := by decide

theorem Kind.minus_ne_eof : Kind.minus ≠ .eof := by decide

theorem Kind.openBracket_ne_eof : Kind.openBracket ≠ .eof := by decide

theorem Stream.weight_lt_of_le (lighter : t.weight ≤ s.weight) (fits : s.weight < bound) :
    t.weight < bound :=
  Nat.lt_of_le_of_lt lighter fits

theorem Stream.weight_next_lt_of_number (found : PLift (s.peek.kind = .number)) :
    s.next.weight < s.weight :=
  s.weight_next_lt (by simp [found.down])

/-- The last letter of a glued word weighs less than the word. -/
theorem Stream.weight_glued_lt {f : Function} {offset : Nat} {letter : Char}
    (unfinished : s.peek.kind ≠ .eof)
    (word : Word.read (s.peek.letters?.getD "") = .glued f offset letter) :
    (s.next.prepend [Token.text (s.peek.position + offset) (String.singleton letter)]).weight <
      s.weight := by
  have whole := s.weight_next_add unfinished
  have shortened := Word.offset_of_read_glued word
  have last : (Token.text (s.peek.position + offset) (String.singleton letter)).weight = 2 := by
    simp [Token.weight, Token.text, Token.letters?]
  have weight : s.peek.weight = 1 + (s.peek.letters?.getD "").toList.length := rfl
  rw [weight_prepend_singleton, last]
  omega

namespace Parsed

theorem weight_rest_lt (parsed : Parsed s) (fits : s.weight < bound) : parsed.rest.weight < bound :=
  Nat.lt_trans parsed.shorter fits

theorem weight_rest_next_lt (parsed : Parsed s) : parsed.rest.next.weight < s.weight :=
  Nat.lt_of_le_of_lt parsed.rest.weight_next_le parsed.shorter

/-- A tree that is spelled by the next token. -/
def token (tree : Expr) (shorter : s.next.weight < s.weight) : Parsed s := ⟨tree, s.next, shorter⟩

/-- A tree that ends where a part of it ends. -/
def outer (part : Parsed t) (tree : Expr) (inside : t.weight < s.weight) : Parsed s :=
  ⟨tree, part.rest, Nat.lt_trans part.shorter inside⟩

/-- A tree that ends one token behind a part of it. -/
def enclosed (part : Parsed t) (inside : t.weight < s.weight) : Parsed s :=
  ⟨part.tree, part.rest.next, Nat.lt_trans part.weight_rest_next_lt inside⟩

end Parsed

/-- Operands behind a first one, with the tree of all of them. -/
abbrev Extended (s : Stream) := { result : Expr × Stream // result.2.weight ≤ s.weight }

namespace Extended

theorem weight_le (left : Expr) (s : Stream) : (left, s).2.weight ≤ s.weight := Nat.le_refl _

/-- No further operand. -/
def none (left : Expr) (s : Stream) : Extended s := ⟨(left, s), weight_le left s⟩

/-- An operand and those behind it. -/
def behind {right : Parsed t} (result : Extended right.rest) (started : t.weight ≤ s.weight) :
    Extended s :=
  ⟨result.1, Nat.le_trans result.2 (Nat.le_of_lt (Nat.lt_of_lt_of_le right.shorter started))⟩

/-- A first operand and those behind it. -/
def parsed {first : Parsed s} (result : Extended first.rest) : Parsed s :=
  ⟨result.1.1, result.1.2, Nat.lt_of_le_of_lt result.2 first.shorter⟩

end Extended

end

/-! ## Rules -/

namespace Unlimited

/-- A rule of the grammar for the streams below a weight. -/
abbrev RuleBelow (bound : Nat) := (s : Stream) → s.weight < bound → Traced (Parsed s)

/-- The operands that follow a first one, grouped to the left. -/
def extend {bound : Nat} (announced : Announced) (operand : RuleBelow bound) (left : Expr)
    (s : Stream) (fits : s.weight < bound) : Traced (Extended s) :=
  match announced s.peek.kind with
  | none => pure (.none left s)
  | some (op, consumes) => do
    let start := if consumes then s.next else s
    have started : start.weight ≤ s.weight := s.weight_start_le consumes
    have startFits := Stream.weight_lt_of_le started fits
    let right ← operand start startFits
    have := right.shorter
    let result ← extend announced operand (.binary op left right.tree) right.rest
      (right.weight_rest_lt startFits)
    pure (result.behind started)
termination_by s.weight

/-- Operands with operators of one level between them. -/
def chain {bound : Nat} (announced : Announced) (operand : RuleBelow bound) : RuleBelow bound :=
  fun s fits => do
    let first ← operand s fits
    let result ← extend announced operand first.tree first.rest (first.weight_rest_lt fits)
    pure result.parsed

/-- An expression whose powers are read by a given rule. -/
def expressionOf {bound : Nat} (power : RuleBelow bound) : RuleBelow bound :=
  chain betweenTerms (chain betweenPowers power)

mutual

/-- A power. -/
def power (s : Stream) : Traced (Parsed s) :=
  .nested s do
    let base ← factor s
    have inside := base.weight_rest_next_lt
    if base.rest.peek.kind = .power then
      let exponent ← power base.rest.next
      pure (exponent.outer (.power base.tree exponent.tree) inside)
    else pure base
termination_by (s.weight, 1)

/-- A factor. -/
def factor (s : Stream) : Traced (Parsed s) :=
  .nested s <|
    match kind : s.peek.kind with
    | .text =>
      have unfinished := Stream.unfinished kind Kind.text_ne_eof
      have shorter := s.weight_next_lt unfinished
      match word : Word.read (s.peek.letters?.getD "") with
      | .constant c => pure (.token (.constant c) shorter)
      | .function f => do
        let argument ← factor s.next
        pure (argument.outer (.apply f argument.tree) shorter)
      | .applied f c => pure (.token (.apply f (.constant c)) shorter)
      | .glued f offset letter => do
        have lighter := Stream.weight_glued_lt unfinished word
        let last := Token.text (s.peek.position + offset) (String.singleton letter)
        let argument ← factor (s.next.prepend [last])
        pure (argument.outer (.apply f argument.tree) lighter)
      | .var name => pure (.token (.var name) shorter)
    | .minus => do
      have unfinished := Stream.unfinished kind Kind.minus_ne_eof
      have shorter := s.weight_next_lt unfinished
      let operand ← factor s.next
      pure (operand.outer operand.tree.negate shorter)
    | .openBracket => do
      have unfinished := Stream.unfinished kind Kind.openBracket_ne_eof
      have shorter := s.weight_next_lt unfinished
      let inside ← expressionOf (fun t _ => power t) s.next shorter
      let _ ← .ofExcept (expect .closeBracket inside.rest)
      let opening := s.peek
      let closing := inside.rest.peek
      if opening.family? = closing.family? then pure (inside.enclosed shorter)
      else
        .ofExcept (.error
          (.mismatch (opening.glyph?.getD '?') (closing.glyph?.getD '?') closing.position))
    | _ => do
      let found ← .ofExcept (expect .number s)
      pure (.token (.literal (s.peek.value?.getD 0)) (Stream.weight_next_lt_of_number found))
termination_by (s.weight, 0)

end

/-- An expression. -/
def expression (s : Stream) : Traced (Parsed s) :=
  expressionOf (fun t _ => power t) s (Nat.lt_succ_self s.weight)

end Unlimited

/-- The expression that a stream spells from its start to its end, without a limit of nesting. -/
def Stream.parseUnlimited (s : Stream) : Traced Expr := do
  let whole ← Unlimited.expression s
  let _ ← .ofExcept (expect .eof whole.rest)
  pure whole.tree

end Formulae
