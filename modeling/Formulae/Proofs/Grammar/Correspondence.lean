import Formulae.Proofs.Grammar.FirstWrong
import Mathlib.Data.List.Forall2

/-!
# Two runs side by side

The parser does not look at all of a token.  It looks at the kind, at the letters of a text and the
value of a number, and it compares the families of two brackets.  Positions and glyphs go into
errors and nowhere else, apart from the position of a letter that is split off its text.

A `Correspondence` relates the tokens of two runs, and their errors, in a way that respects this.
On streams of related tokens every rule does the same, step by step: it returns the same tree and
related rests, or related errors (`Correspondence.respects_expression`).  So two such streams have
the same tree, or related errors (`Correspondence.outcomes_parseWithin`), and so have two texts
with such tokens (`Correspondence.outcomes_parse`).
-/

namespace Formulae

/-- Tokens that mean the same in two runs of the parser, and the errors that they lead to. -/
structure Correspondence where
  /-- A token of the first run and its counterpart in the second one. -/
  Tokens : Token → Token → Prop
  /-- An error of the first run and its counterpart in the second one. -/
  Errors : ParseError → ParseError → Prop
  kind_eq {t t' : Token} : Tokens t t' → t'.kind = t.kind
  letters_eq {t t' : Token} : Tokens t t' → t'.letters = t.letters
  value_eq {t t' : Token} : Tokens t t' → t'.value? = t.value?
  /-- The last letters that are split off corresponding texts. -/
  glued {t t' : Token} {f : Function} {offset : Nat} {letter : Char} :
    Tokens t t' → t.kind = .text → Word.read t.letters = .glued f offset letter →
    Tokens (.text (t.position + offset) (String.singleton letter))
      (.text (t'.position + offset) (String.singleton letter))
  /-- A bracket is closed by one of its own family in both runs or in none. -/
  families {o o' c c' : Token} :
    Tokens o o' → Tokens c c' → (o'.family? = c'.family? ↔ o.family? = c.family?)
  unexpected {t t' : Token} {expected : Kind} :
    Tokens t t' → t.kind ≠ .text →
    Errors (.unexpected t.kind expected t.position) (.unexpected t.kind expected t'.position)
  mismatch {o o' c c' : Token} :
    Tokens o o' → Tokens c c' → o.kind = .openBracket → c.kind = .closeBracket →
    Errors (.mismatch (o.glyph?.getD '?') (c.glyph?.getD '?') c.position)
      (.mismatch (o'.glyph?.getD '?') (c'.glyph?.getD '?') c'.position)
  tooDeep {t t' : Token} {limit : Nat} :
    Tokens t t' → Errors (.tooDeep limit t.position) (.tooDeep limit t'.position)

namespace Correspondence

variable {C : Correspondence} {limit levels : Nat} {s s' : Stream} {t t' : Token}

/-! ## Streams -/

variable (C) in
/-- Streams of corresponding tokens. -/
structure Streams (s s' : Stream) : Prop where
  front : List.Forall₂ C.Tokens s.front s'.front
  final : C.Tokens s.final s'.final

namespace Streams

theorem peek (streams : C.Streams s s') : C.Tokens s.peek s'.peek := by
  cases s
  cases s'
  obtain ⟨fronts, finals⟩ := streams
  cases fronts with
  | nil => exact finals
  | cons first _ => exact first

theorem next (streams : C.Streams s s') : C.Streams s.next s'.next := by
  cases s
  cases s'
  obtain ⟨fronts, finals⟩ := streams
  cases fronts with
  | nil => exact ⟨.nil, finals⟩
  | cons _ others => exact ⟨others, finals⟩

theorem prepend (streams : C.Streams s s') (tokens : C.Tokens t t') :
    C.Streams (s.prepend [t]) (s'.prepend [t']) :=
  ⟨.cons tokens streams.front, streams.final⟩

theorem kind_eq (streams : C.Streams s s') : s'.peek.kind = s.peek.kind :=
  C.kind_eq streams.peek

theorem of_toList (tokens : List.Forall₂ C.Tokens s.toList s'.toList) : C.Streams s s' := by
  rw [← List.forall₂_reverse_iff, Stream.toList, Stream.toList, List.reverse_concat,
    List.reverse_concat] at tokens
  cases tokens with
  | cons final front => exact ⟨List.forall₂_reverse_iff.1 front, final⟩

/-- An operand begins at corresponding tokens. -/
theorem start (streams : C.Streams s s') (consumes : Bool) :
    C.Streams (if consumes then s.next else s) (if consumes then s'.next else s') := by
  cases consumes with
  | true => exact streams.next
  | false => exact streams

end Streams

/-! ## Outcomes -/

variable (C) in
/-- Related results, or corresponding errors. -/
inductive Outcomes {α : Type} (related : α → α → Prop) :
    Except ParseError α → Except ParseError α → Prop where
  | ok {a a' : α} : related a a' → Outcomes related (.ok a) (.ok a')
  | error {cause cause' : ParseError} :
      C.Errors cause cause' → Outcomes related (.error cause) (.error cause')

namespace Outcomes

variable {α β : Type} {related : α → α → Prop} {related' : β → β → Prop}
  {x x' : Except ParseError α}

/-- What two runs go on with is compared where both have a result. -/
theorem bind {f f' : α → Except ParseError β} (first : C.Outcomes related x x')
    (rest : ∀ {a a'}, x = .ok a → related a a' → C.Outcomes related' (f a) (f' a')) :
    C.Outcomes related' (x >>= f) (x' >>= f') := by
  cases first with
  | ok results => exact rest rfl results
  | error causes => exact .error causes

/-- Both runs return the same where they correspond. -/
theorem eq_ok (outcomes : C.Outcomes (· = ·) x x') {a : α} (accepted : x = .ok a) : x' = .ok a := by
  cases outcomes with
  | ok same => exact same ▸ accepted
  | error => cases accepted

theorem exists_error (outcomes : C.Outcomes related x x') {cause : ParseError}
    (refused : x = .error cause) : ∃ cause', x' = .error cause' ∧ C.Errors cause cause' := by
  cases outcomes with
  | ok => cases refused
  | error causes =>
    cases refused
    exact ⟨_, rfl, causes⟩

end Outcomes

/-! ## Rules -/

variable (C) in
/-- The same tree in front of corresponding streams. -/
structure Results (result result' : Expr × Stream) : Prop where
  tree : result.1 = result'.1
  rest : C.Streams result.2 result'.2

variable (C) in
/-- On corresponding streams the rule does the same. -/
def Respects (rule : Rule) : Prop :=
  ∀ {s s' : Stream}, C.Streams s s' → C.Outcomes C.Results (Rule.run rule s) (Rule.run rule s')

section

variable {announced : Announced} {operand : Rule}

theorem outcomes_continued (respects : C.Respects operand) (left : Expr)
    (streams : C.Streams s s') :
    C.Outcomes C.Results (continued announced operand left s)
      (continued announced operand left s') := by
  refine continued_induction
    (motive := fun left s outcome => ∀ {s'}, C.Streams s s' →
      C.Outcomes C.Results outcome (continued announced operand left s'))
    ?stop ?fail ?step left s streams
  case stop =>
    intro left s silent s' streams
    rw [← streams.kind_eq] at silent
    rw [continued_of_none silent]
    exact .ok ⟨rfl, streams⟩
  case fail =>
    intro left s op consumes cause announces fails s' streams
    rw [← streams.kind_eq] at announces
    obtain ⟨cause', fails', causes⟩ := (respects (streams.start consumes)).exists_error fails
    rw [continued_of_some announces, fails', error_bind]
    exact .error causes
  case step =>
    intro left s op consumes right mid announces runs induction s' streams
    rw [← streams.kind_eq] at announces
    have operands := respects (streams.start consumes)
    rw [continued_of_some announces]
    rw [runs] at operands
    generalize Rule.run operand (if consumes then s'.next else s') = runs' at operands
    cases operands with
    | ok results =>
      obtain ⟨rfl, rests⟩ := results
      exact induction rests

theorem respects_chain (respects : C.Respects operand) : C.Respects (chain announced operand) := by
  intro s s' streams
  rw [run_chain, run_chain]
  refine (respects streams).bind ?_
  rintro ⟨first, mid⟩ ⟨_, mid'⟩ - ⟨rfl, rests⟩
  exact outcomes_continued respects first rests

theorem respects_expression_of_power (powers : C.Respects (power limit levels)) :
    C.Respects (expression limit levels) :=
  respects_chain (respects_chain powers)

end

/-! ## Powers and factors -/

section

variable (powers : C.Respects (power limit levels)) (factors : C.Respects (factor limit levels))

include factors

theorem respects_factor_text (text : s.peek.kind = .text) (streams : C.Streams s s') :
    C.Outcomes C.Results (Rule.run (factor limit (levels + 1)) s)
      (Rule.run (factor limit (levels + 1)) s') := by
  have text' : s'.peek.kind = .text := streams.kind_eq.trans text
  -- The result of the argument, in front of the same rests.
  have applied {t t' : Stream} (f : Function) (arguments : C.Streams t t') :
      C.Outcomes C.Results
        (Rule.run (factor limit levels) t >>= fun argument => .ok (.apply f argument.1, argument.2))
        (Rule.run (factor limit levels) t' >>= fun argument =>
          .ok (.apply f argument.1, argument.2)) := by
    refine (factors arguments).bind ?_
    rintro ⟨u, rest⟩ ⟨_, rest'⟩ - ⟨rfl, rests⟩
    exact .ok ⟨rfl, rests⟩
  rw [run_factor_text text, run_factor_text text', C.letters_eq streams.peek]
  cases word : Word.read s.peek.letters with
  | constant | applied | var => exact .ok ⟨rfl, streams.next⟩
  | function f => exact applied f streams.next
  | glued f offset letter =>
    exact applied f (streams.next.prepend (C.glued streams.peek text word))

theorem respects_factor_minus (minus : s.peek.kind = .minus) (streams : C.Streams s s') :
    C.Outcomes C.Results (Rule.run (factor limit (levels + 1)) s)
      (Rule.run (factor limit (levels + 1)) s') := by
  rw [run_factor_minus minus, run_factor_minus (streams.kind_eq.trans minus)]
  refine (factors streams.next).bind ?_
  rintro ⟨u, rest⟩ ⟨_, rest'⟩ - ⟨rfl, rests⟩
  exact .ok ⟨rfl, rests⟩

omit factors
include powers

/-- An expression stops at a closing bracket or at the end of the input, so that the token of an
error behind it is no text. -/
theorem respects_factor_openBracket (opens : s.peek.kind = .openBracket)
    (streams : C.Streams s s') :
    C.Outcomes C.Results (Rule.run (factor limit (levels + 1)) s)
      (Rule.run (factor limit (levels + 1)) s') := by
  rw [run_factor_openBracket opens, run_factor_openBracket (streams.kind_eq.trans opens)]
  refine (respects_expression_of_power powers streams.next).bind ?_
  rintro ⟨inside, mid⟩ ⟨_, mid'⟩ runs ⟨rfl, rests⟩
  have stops := expression_stops limit levels _ _ _ runs
  dsimp only at rests stops ⊢
  rw [rests.kind_eq]
  by_cases closes : mid.peek.kind = .closeBracket
  · rw [if_pos closes, if_pos closes]
    by_cases families : s.peek.family? = mid.peek.family?
    · rw [if_pos families, if_pos ((C.families streams.peek rests.peek).2 families)]
      exact .ok ⟨rfl, rests.next⟩
    · rw [if_neg families, if_neg (mt (C.families streams.peek rests.peek).1 families)]
      exact .error (C.mismatch streams.peek rests.peek opens closes)
  · rw [if_neg closes, if_neg closes]
    have finished := stops.resolve_left closes
    exact .error (C.unexpected rests.peek (by simp [finished]))

include factors

theorem respects_power_succ : C.Respects (power limit (levels + 1)) := by
  intro s s' streams
  rw [run_power_succ, run_power_succ]
  refine (factors streams).bind ?_
  rintro ⟨base, mid⟩ ⟨_, mid'⟩ - ⟨rfl, rests⟩
  dsimp only at rests ⊢
  rw [rests.kind_eq]
  by_cases raised : mid.peek.kind = .power
  · rw [if_pos raised, if_pos raised]
    refine (powers rests.next).bind ?_
    rintro ⟨exponent, last⟩ ⟨_, last'⟩ - ⟨rfl, lasts⟩
    exact .ok ⟨rfl, lasts⟩
  · rw [if_neg raised, if_neg raised]
    exact .ok ⟨rfl, rests⟩

theorem respects_factor_succ : C.Respects (factor limit (levels + 1)) := by
  intro s s' streams
  by_cases text : s.peek.kind = .text
  · exact respects_factor_text factors text streams
  by_cases minus : s.peek.kind = .minus
  · exact respects_factor_minus factors minus streams
  by_cases opens : s.peek.kind = .openBracket
  · exact respects_factor_openBracket powers opens streams
  have same := streams.kind_eq
  rw [run_factor_other text minus opens, run_factor_other (by rwa [same]) (by rwa [same])
    (by rwa [same]), same]
  by_cases number : s.peek.kind = .number
  · rw [if_pos number, if_pos number, C.value_eq streams.peek]
    exact .ok ⟨rfl, streams.next⟩
  · rw [if_neg number, if_neg number]
    exact .error (C.unexpected streams.peek text)

end

theorem respects_power_and_factor (C : Correspondence) (limit levels : Nat) :
    C.Respects (power limit levels) ∧ C.Respects (factor limit levels) := by
  induction levels with
  | zero =>
    constructor
    · intro s s' streams
      rw [run_power_zero, run_power_zero]
      exact .error (C.tooDeep streams.peek)
    · intro s s' streams
      rw [run_factor_zero, run_factor_zero]
      exact .error (C.tooDeep streams.peek)
  | succ levels induction =>
    obtain ⟨powers, factors⟩ := induction
    exact ⟨respects_power_succ powers factors, respects_factor_succ powers factors⟩

theorem respects_expression (C : Correspondence) (limit levels : Nat) :
    C.Respects (expression limit levels) :=
  respects_expression_of_power (C.respects_power_and_factor limit levels).1

/-- Corresponding streams have the same tree or corresponding errors. -/
theorem outcomes_parseWithin (limit : Nat) (streams : C.Streams s s') :
    C.Outcomes (· = ·) (s.parseWithin limit) (s'.parseWithin limit) := by
  rw [parseWithin_eq, parseWithin_eq]
  refine (C.respects_expression limit limit streams).bind ?_
  rintro ⟨tree, rest⟩ ⟨_, rest'⟩ runs ⟨rfl, rests⟩
  have stops := expression_stops limit limit _ _ _ runs
  dsimp only at rests stops ⊢
  rw [rests.kind_eq]
  by_cases finished : rest.peek.kind = .eof
  · rw [if_pos finished, if_pos finished]
    exact .ok rfl
  · rw [if_neg finished, if_neg finished]
    have closes := stops.resolve_right finished
    exact .error (C.unexpected rests.peek (by simp [closes]))

/-- Texts with corresponding tokens have the same tree or corresponding errors. -/
theorem outcomes_parse {source source' : String} {tokens tokens' : List Token}
    (accepted : tokenize source = .ok tokens) (accepted' : tokenize source' = .ok tokens')
    (corresponds : List.Forall₂ C.Tokens tokens tokens') :
    C.Outcomes (· = ·) (parse source) (parse source') := by
  rw [parse_of_tokenize accepted, parse_of_tokenize accepted']
  refine C.outcomes_parseWithin maxDepth (.of_toList ?_)
  rwa [(lexedTokens_of_tokenize accepted).toList_ofList.1,
    (lexedTokens_of_tokenize accepted').toList_ofList.1]

end Correspondence

end Formulae
