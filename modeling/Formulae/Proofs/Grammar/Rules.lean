import Formulae.Parser.Basic
import Formulae.Proofs.Grammar.Derivation

/-!
# What the rules do

A rule returns a tree and the stream that it leaves, together with a proof that it got shorter.
`Rule.run` forgets the proof, and the equations of this module say what each rule runs, one
equation to a rule and, for a factor, one to a kind of token.  Nothing later opens a rule again.

`Takes s ts rest` says that `rest` is the stream `s` without its next tokens `ts`.
-/

namespace Formulae

/-! ## Taking tokens from a stream -/

/-- The stream without the tokens `ts` at its front is `rest`. -/
def Stream.Takes (s : Stream) (ts : List Token) (rest : Stream) : Prop :=
  s.front = ts ++ rest.front ∧ s.final = rest.final

namespace Stream

variable {s mid rest : Stream} {t : Token} {ts us : List Token}

theorem eq_of_front_final (fronts : s.front = rest.front) (finals : s.final = rest.final) :
    s = rest := by
  cases s
  cases rest
  cases fronts
  cases finals
  rfl

theorem Takes.nil (s : Stream) : s.Takes [] s := ⟨rfl, rfl⟩

theorem Takes.eq_of_nil (takes : s.Takes [] rest) : s = rest :=
  eq_of_front_final takes.1 takes.2

theorem Takes.append (first : s.Takes ts mid) (second : mid.Takes us rest) :
    s.Takes (ts ++ us) rest := by
  refine ⟨?_, first.2.trans second.2⟩
  rw [first.1, second.1, List.append_assoc]

/-- Tokens that are taken in one go can be taken in two. -/
theorem Takes.split (takes : s.Takes (ts ++ us) rest) :
    ∃ mid, s.Takes ts mid ∧ Takes mid us rest := by
  refine ⟨rest.prepend us, ⟨?_, takes.2⟩, ⟨rfl, rfl⟩⟩
  rw [takes.1, List.append_assoc]
  rfl

theorem Takes.peek_eq (takes : s.Takes (t :: ts) rest) : s.peek = t := by
  simp [peek, takes.1]

theorem Takes.next (takes : s.Takes (t :: ts) rest) : s.next.Takes ts rest := by
  refine ⟨?_, takes.2⟩
  simp [Stream.next, takes.1]

theorem takes_next (unfinished : s.peek.kind ≠ .eof) : s.Takes [s.peek] s.next := by
  refine ⟨?_, rfl⟩
  cases shape : s.front with
  | nil =>
    have last : s.peek.kind = .eof := by simp [peek, shape, s.final_kind]
    exact absurd last unfinished
  | cons t ts => simp [peek, Stream.next, shape]

theorem takes_prepend (s : Stream) (ts : List Token) : (s.prepend ts).Takes ts s := ⟨rfl, rfl⟩

end Stream

/-! ## Results -/

section Results

variable {ε α β : Type} {x : Except ε α} {f : α → Except ε β}

theorem ok_bind (a : α) (f : α → Except ε β) : (Except.ok a >>= f) = f a := rfl

theorem error_bind (cause : ε) (f : α → Except ε β) :
    ((Except.error cause : Except ε α) >>= f) = .error cause := rfl

theorem bind_eq_ok_iff {b : β} : (x >>= f) = .ok b ↔ ∃ a, x = .ok a ∧ f a = .ok b := by
  cases x with
  | error cause => simp [error_bind]
  | ok a => simp [ok_bind]

theorem bind_eq_error_iff {cause : ε} :
    (x >>= f) = .error cause ↔ x = .error cause ∨ ∃ a, x = .ok a ∧ f a = .error cause := by
  cases x with
  | error other => simp [error_bind]
  | ok a => simp [ok_bind]

end Results

/-- What follows a required token happens if the token is there. -/
theorem expect_bind {α : Type} {kind : Kind} {s : Stream}
    {f : PLift (s.peek.kind = kind) → Except ParseError α} {outcome : Except ParseError α}
    (follows : ∀ found, f found = outcome) :
    (expect kind s >>= f) = if s.peek.kind = kind then outcome
      else .error (.unexpected s.peek.kind kind s.peek.position) := by
  by_cases found : s.peek.kind = kind
  · rw [expect, dif_pos found, if_pos found, ok_bind, follows]
  · rw [expect, dif_neg found, if_neg found, error_bind]

/-! ## Running a rule -/

/-- The tree that a rule returns and the stream that it leaves. -/
def Rule.run (rule : Rule) (s : Stream) : Except ParseError (Expr × Stream) :=
  (fun parsed => (parsed.tree, parsed.rest)) <$> rule s

/-- An operand begins with the announcing token or behind it. -/
theorem Stream.weight_start_le (s : Stream) (consumes : Bool) :
    (if consumes then s.next else s).weight ≤ s.weight := by
  split
  · exact s.weight_next_le
  · exact Nat.le_refl _

/-- The operands that follow a first one, without the proof that tokens are used up. -/
def continued (announced : Announced) (operand : Rule) (left : Expr) (s : Stream) :
    Except ParseError (Expr × Stream) :=
  Subtype.val <$> extend announced operand left s

variable {announced : Announced} {operand : Rule} {left : Expr} {s : Stream} {limit levels : Nat}

theorem run_chain : Rule.run (chain announced operand) s = (do
    let first ← Rule.run operand s
    continued announced operand first.1 first.2) := by
  unfold Rule.run continued chain
  rw [map_bind, bind_map_left]
  simp only [map_bind]
  rfl

theorem continued_of_none (silent : announced s.peek.kind = none) :
    continued announced operand left s = .ok (left, s) := by
  unfold continued
  rw [extend]
  split
  next => rfl
  next op consumes announces =>
    rw [silent] at announces
    cases announces

theorem continued_of_some {op : Operator} {consumes : Bool}
    (announces : announced s.peek.kind = some (op, consumes)) :
    continued announced operand left s = (do
      let right ← Rule.run operand (if consumes then s.next else s)
      continued announced operand (.binary op left right.1) right.2) := by
  unfold continued Rule.run
  rw [extend]
  split
  next silent =>
    rw [announces] at silent
    cases silent
  next op' consumes' announces' =>
    rw [announces] at announces'
    cases announces'
    rw [bind_map_left]
    simp only [map_bind]
    rfl

theorem run_power_zero : Rule.run (power limit 0) s = .error (.tooDeep limit s.peek.position) :=
  rfl

theorem run_power_succ : Rule.run (power limit (levels + 1)) s = (do
    let base ← Rule.run (factor limit levels) s
    if base.2.peek.kind = .power then
      let exponent ← Rule.run (power limit levels) base.2.next
      .ok (.power base.1 exponent.1, exponent.2)
    else .ok base) := by
  unfold Rule.run
  rw [power, bind_map_left, map_bind]
  congr
  funext base
  split
  next => rw [map_bind, bind_map_left]; rfl
  next => rfl

theorem run_factor_zero : Rule.run (factor limit 0) s = .error (.tooDeep limit s.peek.position) :=
  rfl

theorem run_factor_minus (minus : s.peek.kind = .minus) :
    Rule.run (factor limit (levels + 1)) s = (do
      let operand ← Rule.run (factor limit levels) s.next
      .ok (operand.1.negate, operand.2)) := by
  unfold Rule.run
  rw [factor]
  split
  next text => rw [minus] at text; cases text
  next => rw [map_bind, bind_map_left]; rfl
  next opens => rw [minus] at opens; cases opens
  next notMinus _ => exact absurd minus notMinus

theorem run_factor_openBracket (opens : s.peek.kind = .openBracket) :
    Rule.run (factor limit (levels + 1)) s = (do
      let inside ← Rule.run (expression limit levels) s.next
      if inside.2.peek.kind = .closeBracket then
        if s.peek.family? = inside.2.peek.family? then .ok (inside.1, inside.2.next)
        else .error (.mismatch (s.peek.glyph?.getD '?') (inside.2.peek.glyph?.getD '?')
          inside.2.peek.position)
      else .error (.unexpected inside.2.peek.kind .closeBracket inside.2.peek.position)) := by
  unfold Rule.run
  rw [factor]
  split
  next text => rw [opens] at text; cases text
  next minus => rw [opens] at minus; cases minus
  next =>
    rw [map_bind, bind_map_left]
    refine congrArg _ (funext fun inside => ?_)
    rw [map_bind]
    refine expect_bind fun closes => ?_
    dsimp only
    split
    next => rfl
    next => rfl
  next notOpening => exact absurd opens notOpening

theorem run_factor_text (text : s.peek.kind = .text) :
    Rule.run (factor limit (levels + 1)) s =
      match Word.read s.peek.letters with
      | .constant c => .ok (.constant c, s.next)
      | .function f => do
        let argument ← Rule.run (factor limit levels) s.next
        .ok (.apply f argument.1, argument.2)
      | .applied f c => .ok (.apply f (.constant c), s.next)
      | .glued f offset letter => do
        let last := Token.text (s.peek.position + offset) (String.singleton letter)
        let argument ← Rule.run (factor limit levels) (s.next.prepend [last])
        .ok (.apply f argument.1, argument.2)
      | .var name => .ok (.var name, s.next) := by
  unfold Rule.run
  rw [factor]
  split
  next =>
    split
    next c word =>
      rw [show Word.read s.peek.letters = .constant c from word]
      rfl
    next f word =>
      rw [show Word.read s.peek.letters = .function f from word]
      dsimp only
      rw [map_bind, bind_map_left]
      rfl
    next f c word =>
      rw [show Word.read s.peek.letters = .applied f c from word]
      rfl
    next f offset letter word =>
      rw [show Word.read s.peek.letters = .glued f offset letter from word]
      dsimp only
      rw [map_bind, bind_map_left]
      rfl
    next name word =>
      rw [show Word.read s.peek.letters = .var name from word]
      rfl
  next minus => rw [text] at minus; cases minus
  next opens => rw [text] at opens; cases opens
  next notText _ _ => exact absurd text notText

theorem run_factor_other (notText : s.peek.kind ≠ .text) (notMinus : s.peek.kind ≠ .minus)
    (notOpening : s.peek.kind ≠ .openBracket) :
    Rule.run (factor limit (levels + 1)) s =
      if s.peek.kind = .number then .ok (.literal (s.peek.value?.getD 0), s.next)
      else .error (.unexpected s.peek.kind .number s.peek.position) := by
  unfold Rule.run
  rw [factor]
  split
  next text => exact absurd text notText
  next minus => exact absurd minus notMinus
  next opens => exact absurd opens notOpening
  next =>
    rw [map_bind]
    exact expect_bind fun found => rfl

end Formulae
