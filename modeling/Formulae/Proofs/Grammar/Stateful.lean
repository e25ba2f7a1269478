import Formulae.Parser.Stateful
import Formulae.Proofs.Grammar.Positions
import Formulae.Proofs.Grammar.Recognition

/-!
# How the grammar with a state ends

A program `Ends` with a result if some number of open calls is enough for it, and every greater number
gives the same one.  The result is an outcome with the state that is left, or a fault.

A program `Follows` an expected outcome if, from every stream shown as a queue, it ends with the counter
where it was, never above the limit, and with tokens left that weigh less than a bound.  It ends as expected
if the positions fit.  Otherwise a checked build may break off, but at a position and nowhere else.

`Follows.after` and `Follows.bind` go through the steps of a program.  A loop is treated by induction on the
weight (`follows_more`), because a letter that goes back into the queue makes it longer, but not heavier
than with the whole text.  Powers and factors are treated by induction on the levels that are left
(`follows_nested`).
-/

namespace Formulae.Stateful

variable {α β : Type}

/-! ## How work ends -/

/-- The work halts with a result: an answer and another state, or a fault. -/
def Halts (work : Work α) (before : State) (result : Except Fault (α × State)) : Prop :=
  (StateT.run work before).run = some result

/-- The program ends with a result, an outcome and another state or a fault, if enough calls may be open
at once. -/
def Ends (build : Build) (program : Program α) (before : State)
    (result : Except Fault (Except ParseError α × State)) : Prop :=
  ∃ enough, ∀ calls, enough ≤ calls →
    Halts (program (perform build calls)).run before result

section

variable {before mid : State} {a : α} {fault : Fault} {s : Stream} {depth deepest : Nat}

namespace Halts

variable {work : Work α} {f : α → Work β} {result : Except Fault (β × State)}

theorem pure : Halts (pure a) before (.ok (a, before)) := rfl

theorem bind (first : Halts work before (.ok (a, mid))) (second : Halts (f a) mid result) :
    Halts (work >>= f) before result := by
  unfold Halts at first second ⊢
  rw [StateT.run_bind, ExceptT.run_bind, first]
  exact second

theorem bind_fault (first : Halts work before (.error fault)) :
    Halts (work >>= f) before (.error fault) := by
  unfold Halts at first ⊢
  rw [StateT.run_bind, ExceptT.run_bind, first]
  rfl

theorem map (f : α → β) (halts : Halts work before (.ok (a, mid))) :
    Halts (f <$> work) before (.ok (f a, mid)) := by
  unfold Halts at halts ⊢
  rw [StateT.run_map, ExceptT.run_map, halts]
  rfl

theorem map_fault (f : α → β) (halts : Halts work before (.error fault)) :
    Halts (f <$> work) before (.error fault) := by
  unfold Halts at halts ⊢
  rw [StateT.run_map, ExceptT.run_map, halts]
  rfl

theorem get : Halts get before (.ok (before, before)) := rfl

end Halts

/-! ### Intact queues -/

/-- A state whose queue ends in the end of the input. -/
def State.intact (s : Stream) (depth deepest : Nat) : State := ⟨s.toList, depth, deepest⟩

theorem State.queue_intact : (State.intact s depth deepest).queue = s.toList := rfl

theorem State.depth_intact : (State.intact s depth deepest).depth = depth := rfl

theorem halts_useQueue {use : Queue → Option (α × Queue)} {s' : Stream}
    (used : use s.toList = some (a, s'.toList)) :
    Halts (useQueue use) (.intact s depth deepest) (.ok (a, .intact s' depth deepest)) := by
  refine Halts.get.bind ?_
  rw [State.queue_intact, used]
  rfl

theorem halts_peek :
    Halts peek (.intact s depth deepest) (.ok (s.peek, .intact s depth deepest)) :=
  halts_useQueue (by rw [s.peek?_toList, Option.map_some])

theorem halts_take :
    Halts take (.intact s depth deepest) (.ok (s.peek, .intact s.next depth deepest)) :=
  halts_useQueue s.next?_toList

theorem halts_putBack {tokens : List Token} :
    Halts (putBack tokens) (.intact s depth deepest)
      (.ok ((), .intact (s.prepend tokens) depth deepest)) :=
  halts_useQueue (by rw [s.prepend_toList])

theorem halts_useUp {consumes : Bool} :
    Halts (useUp consumes) (.intact s depth deepest)
      (.ok ((), .intact (if consumes then s.next else s) depth deepest)) := by
  cases consumes with
  | false => exact .pure
  | true => exact halts_take.map fun _ => ()

theorem halts_enter :
    Halts enter (.intact s depth deepest)
      (.ok ((), .intact s (depth + 1) (max deepest (depth + 1)))) := rfl

theorem halts_leave :
    Halts leave (.intact s (depth + 1) deepest) (.ok ((), .intact s depth deepest)) := rfl

theorem halts_advance {build : Build} {position offset sum : Nat}
    (given : build.advance? position offset = some sum) :
    Halts (advance build position offset) before (.ok (sum, before)) := by
  rw [advance, given]
  rfl

theorem halts_advance_overflow {build : Build} {position offset : Nat}
    (missing : build.advance? position offset = none) :
    Halts (advance build position offset) before (.error .overflow) := by
  rw [advance, missing]
  rfl

theorem halts_fill {build : Build} {tokens : List Token}
    (made : Queue.make? build tokens = some s.toList) :
    Halts (fill build tokens) .start (.ok ((), .intact s 0 0)) := by
  rw [fill, made]
  rfl

theorem halts_fill_overflow {build : Build} {tokens : List Token}
    (missing : Queue.make? build tokens = none) :
    Halts (fill build tokens) before (.error .overflow) := by
  rw [fill, missing]
  rfl

/-! ### Programs -/

namespace Ends

variable {build : Build} {program : Program α} {work : Work α} {f : (Call → Action Expr) → α → Action β}
  {result : Except Fault (Except ParseError β × State)} {cause : ParseError}

/-- A program has one result. -/
theorem unique {result result' : Except Fault (Except ParseError α × State)}
    (ends : Ends build program before result) (ends' : Ends build program before result') :
    result = result' := by
  obtain ⟨enough, halts⟩ := ends
  obtain ⟨enough', halts'⟩ := ends'
  have first := halts (max enough enough') (Nat.le_max_left _ _)
  have second := halts' (max enough enough') (Nat.le_max_right _ _)
  exact Option.some.inj (first.symm.trans second)

theorem after (first : Halts work before (.ok (a, mid)))
    (second : Ends build (fun call => f call a) mid result) :
    Ends build (fun call => liftM work >>= f call) before result := by
  obtain ⟨enough, halts⟩ := second
  exact ⟨enough, fun calls le => (first.map Except.ok).bind (halts calls le)⟩

theorem after_fault (first : Halts work before (.error fault)) :
    Ends build (fun call => liftM work >>= f call) before (.error fault) :=
  ⟨0, fun _ _ => (first.map_fault Except.ok).bind_fault⟩

theorem bind (first : Ends build program before (.ok (.ok a, mid)))
    (second : Ends build (fun call => f call a) mid result) :
    Ends build (fun call => program call >>= f call) before result := by
  obtain ⟨enough, halts⟩ := first
  obtain ⟨enough', halts'⟩ := second
  refine ⟨max enough enough', fun calls le => ?_⟩
  obtain ⟨le, le'⟩ := Nat.max_le.1 le
  exact (halts calls le).bind (halts' calls le')

theorem bind_error (first : Ends build program before (.ok (.error cause, mid))) :
    Ends build (fun call => program call >>= f call) before (.ok (.error cause, mid)) := by
  obtain ⟨enough, halts⟩ := first
  exact ⟨enough, fun calls le => (halts calls le).bind .pure⟩

theorem bind_fault (first : Ends build program before (.error fault)) :
    Ends build (fun call => program call >>= f call) before (.error fault) := by
  obtain ⟨enough, halts⟩ := first
  exact ⟨enough, fun calls le => (halts calls le).bind_fault⟩

/-- A call ends as what is done at the call. -/
theorem call {c : Call} {result : Except Fault (Except ParseError Expr × State)}
    (ends : Ends build (fun call => answer build call c) before result) :
    Ends build (fun call => call c) before result := by
  obtain ⟨enough, halts⟩ := ends
  refine ⟨enough + 1, fun calls le => ?_⟩
  cases calls with
  | zero => cases le
  | succ calls => exact halts calls (Nat.le_of_succ_le_succ le)

variable {s' : Stream} {deepest' : Nat} {outcome : Except ParseError α}

/-- With room for one level more, work that is nested ends as it does on its level, which is left
behind it. -/
theorem enter (room : depth < maxDepth)
    (ends : Ends build program (.intact s (depth + 1) (max deepest (depth + 1)))
      (.ok (outcome, .intact s' (depth + 1) deepest'))) :
    Ends build (fun call => nested (program call)) (.intact s depth deepest)
      (.ok (outcome, .intact s' depth deepest')) := by
  obtain ⟨enough, halts⟩ := ends
  refine ⟨enough, fun calls le => Halts.get.bind ?_⟩
  rw [State.depth_intact, if_neg (Nat.not_le.2 room)]
  exact halts_enter.bind ((halts calls le).bind (halts_leave.bind .pure))

theorem enter_fault (room : depth < maxDepth)
    (ends : Ends build program (.intact s (depth + 1) (max deepest (depth + 1))) (.error fault)) :
    Ends build (fun call => nested (program call)) (.intact s depth deepest) (.error fault) := by
  obtain ⟨enough, halts⟩ := ends
  refine ⟨enough, fun calls le => Halts.get.bind ?_⟩
  rw [State.depth_intact, if_neg (Nat.not_le.2 room)]
  exact halts_enter.bind (halts calls le).bind_fault

/-- Without room, nested work is refused. -/
theorem refuse (full : maxDepth ≤ depth) :
    Ends build (fun call => nested (program call)) (.intact s depth deepest)
      (.ok (.error (.tooDeep maxDepth s.peek.position), .intact s depth deepest)) := by
  refine ⟨0, fun calls _ => Halts.get.bind ?_⟩
  rw [State.depth_intact, if_pos full]
  exact halts_peek.bind .pure

end Ends

end

/-! ## Following the rules of the grammar -/

/-- The error is one of those of the grammar, with the limit of nesting. -/
def IsGrammatical : ParseError → Prop
  | .unexpected .. | .mismatch .. => True
  | .tooDeep limit _ => limit = maxDepth
  | .lexing _ => False

/-- The outcome is a result with less than a weight of tokens left, or an error of the grammar.  If the
positions fit, it is the expected one, and the positions of what is left fit as well. -/
def Agrees (fits : Prop) (bound : Nat) (expected : Except ParseError (α × Stream))
    (outcome : Except ParseError α) (rest : Stream) : Prop :=
  match outcome with
  | .ok a => rest.weight < bound ∧ (fits → rest.Fits ∧ expected = .ok (a, rest))
  | .error cause => IsGrammatical cause ∧ (fits → expected = .error cause)

/-- At a depth, with the tokens of a stream in the queue, the program ends as expected.  It leaves the
depth as it was, and it goes no deeper than the limit.  A checked build may break off instead, if there
are positions that do not fit. -/
def Follows (build : Build) (fits : Prop) (program : Program α) (depth : Nat) (s : Stream) (bound : Nat)
    (expected : Except ParseError (α × Stream)) : Prop :=
  ∀ deepest,
    (∃ outcome rest deepest',
      Ends build program (.intact s depth deepest) (.ok (outcome, .intact rest depth deepest')) ∧
        deepest' ≤ max deepest maxDepth ∧ Agrees fits bound expected outcome rest) ∨
    build = .checked ∧ ¬ fits ∧ Ends build program (.intact s depth deepest) (.error .overflow)

section

variable {build : Build} {fits : Prop} {s s' : Stream} {a : α} {depth bound middle : Nat}
  {expected expected' : Except ParseError (α × Stream)} {cause : ParseError}

namespace Agrees

variable {outcome : Except ParseError α} {rest : Stream}

/-- More may be required of the positions, and under this requirement another outcome expected. -/
theorem congr {fits' : Prop} (agrees : Agrees fits bound expected outcome rest) (stronger : fits' → fits)
    (same : fits' → expected = expected') : Agrees fits' bound expected' outcome rest := by
  cases outcome with
  | ok a =>
    refine ⟨agrees.1, fun fit => ?_⟩
    obtain ⟨restFits, exact⟩ := agrees.2 (stronger fit)
    exact ⟨restFits, (same fit).symm.trans exact⟩
  | error cause => exact ⟨agrees.1, fun fit => (same fit).symm.trans (agrees.2 (stronger fit))⟩

theorem eq (agrees : Agrees fits bound expected outcome rest) (fit : fits) :
    outcome = Prod.fst <$> expected := by
  cases outcome with
  | ok a => rw [(agrees.2 fit).2]; rfl
  | error cause => rw [agrees.2 fit]; rfl

theorem isGrammatical (agrees : Agrees fits bound expected (.error cause) rest) :
    IsGrammatical cause := agrees.1

end Agrees

namespace Follows

variable {program : Program α} {f : (Call → Action Expr) → α → Action β}

theorem pure (small : s.weight < bound) (fit : fits → s.Fits) :
    Follows build fits (fun _ => Pure.pure a) depth s bound (.ok (a, s)) := fun deepest =>
  .inl ⟨.ok a, s, deepest, ⟨0, fun _ _ => .pure⟩, Nat.le_max_left _ _, small, fun fits => ⟨fit fits, rfl⟩⟩

theorem fail (grammatical : IsGrammatical cause) :
    Follows build fits (fun _ => Stateful.fail cause) depth s bound
      (.error cause : Except ParseError (α × Stream)) := fun deepest =>
  .inl ⟨.error cause, s, deepest, ⟨0, fun _ _ => .pure⟩, Nat.le_max_left _ _, grammatical, fun _ => rfl⟩

theorem congr {fits' : Prop} (follows : Follows build fits program depth s bound expected)
    (stronger : fits' → fits) (same : fits' → expected = expected') :
    Follows build fits' program depth s bound expected' := by
  intro deepest
  obtain ⟨outcome, rest, deepest', ends, limited, agrees⟩ | ⟨checked, unfit, ends⟩ := follows deepest
  · exact .inl ⟨outcome, rest, deepest', ends, limited, agrees.congr stronger same⟩
  · exact .inr ⟨checked, fun fit => unfit (stronger fit), ends⟩

/-- More may be required of the positions. -/
theorem mono {fits' : Prop} (follows : Follows build fits program depth s bound expected)
    (stronger : fits' → fits) : Follows build fits' program depth s bound expected :=
  follows.congr stronger fun _ => rfl

/-- A program follows what another one does if it ends as that one does from another stream. -/
theorem of_ends {program' : Program α} (follows : Follows build fits program depth s' bound expected)
    (ends : ∀ deepest result, Ends build program (.intact s' depth deepest) result →
      Ends build program' (.intact s depth deepest) result) :
    Follows build fits program' depth s bound expected := by
  intro deepest
  obtain ⟨outcome, rest, deepest', first, limited, agrees⟩ | ⟨checked, unfit, first⟩ := follows deepest
  · exact .inl ⟨outcome, rest, deepest', ends _ _ first, limited, agrees⟩
  · exact .inr ⟨checked, unfit, ends _ _ first⟩

/-- Work that gives one answer, and the rest. -/
theorem after {work : Work α}
    (halts : ∀ deepest, Halts work (.intact s depth deepest) (.ok (a, .intact s' depth deepest)))
    {expected : Except ParseError (β × Stream)}
    (follows : Follows build fits (fun call => f call a) depth s' bound expected) :
    Follows build fits (fun call => liftM work >>= f call) depth s bound expected :=
  follows.of_ends fun deepest _ => .after (halts deepest)

/-- A call follows what is done at the call. -/
theorem call {c : Call} {expected : Except ParseError (Expr × Stream)}
    (follows : Follows build fits (fun call => answer build call c) depth s bound expected) :
    Follows build fits (fun call => call c) depth s bound expected :=
  follows.of_ends fun _ _ => .call

theorem bind {g : α × Stream → Except ParseError (β × Stream)}
    (first : Follows build fits program depth s middle expected)
    (second : ∀ a mid, mid.weight < middle →
      Follows build mid.Fits (fun call => f call a) depth mid bound (g (a, mid))) :
    Follows build fits (fun call => program call >>= f call) depth s bound (expected >>= g) := by
  intro deepest
  obtain ⟨outcome, mid, deepest', ends, limited, agrees⟩ | ⟨checked, unfit, ends⟩ := first deepest
  case inr => exact .inr ⟨checked, unfit, ends.bind_fault⟩
  cases outcome with
  | error cause =>
    refine .inl ⟨.error cause, mid, deepest', ends.bind_error, limited, agrees.1, fun fit => ?_⟩
    rw [agrees.2 fit, error_bind]
  | ok a =>
    obtain ⟨outcome, rest, deepest'', ends', limited', agrees'⟩ | ⟨checked, unfit, ends'⟩ :=
      second a mid agrees.1 deepest'
    · have deep := Nat.le_trans limited' (Nat.max_le.2 ⟨limited, Nat.le_max_right _ _⟩)
      refine .inl ⟨outcome, rest, deepest'', ends.bind ends', deep, ?_⟩
      refine agrees'.congr (fun fit => (agrees.2 fit).1) fun fit => ?_
      rw [(agrees.2 fit).2, ok_bind]
    · exact .inr ⟨checked, fun fit => unfit (agrees.2 fit).1, ends.bind ends'⟩

/-! ### Levels of nesting -/

theorem enter (room : depth < maxDepth)
    (follows : Follows build fits program (depth + 1) s bound expected) :
    Follows build fits (fun call => nested (program call)) depth s bound expected := by
  intro deepest
  obtain ⟨outcome, rest, deepest', ends, limited, agrees⟩ | ⟨checked, unfit, ends⟩ :=
    follows (max deepest (depth + 1))
  · exact .inl ⟨outcome, rest, deepest', ends.enter room, by omega, agrees⟩
  · exact .inr ⟨checked, unfit, ends.enter_fault room⟩

theorem refuse (full : maxDepth ≤ depth) :
    Follows build fits (fun call => nested (program call)) depth s bound
      (.error (.tooDeep maxDepth s.peek.position)) := fun deepest =>
  .inl ⟨.error (.tooDeep maxDepth s.peek.position), s, deepest, .refuse full, Nat.le_max_left _ _, rfl,
    fun _ => rfl⟩

/-! ### The rules -/

theorem expect {kind : Kind} {f : (Call → Action Expr) → Unit → Action α}
    (follows : s.peek.kind = kind → Follows build fits (fun call => f call ()) depth s bound expected) :
    Follows build fits (fun call => Stateful.expect kind >>= f call) depth s bound
      (if s.peek.kind = kind then expected
        else .error (.unexpected s.peek.kind kind s.peek.position)) := by
  unfold Stateful.expect
  simp only [bind_assoc]
  refine .after (fun _ => halts_peek) ?_
  by_cases found : s.peek.kind = kind
  · simp only [if_pos found]
    exact follows found
  · simp only [if_neg found]
    exact .fail trivial

end Follows

theorem follows_more {level : Level} {rule : Rule}
    (operandFollows : ∀ s, Follows build s.Fits (fun call => operand call level) depth s s.weight
      (Rule.run rule s))
    (left : Expr) (s : Stream) (small : s.weight < bound) :
    Follows build s.Fits (fun call => call (.more level left)) depth s bound
      (continued level.announced rule left s) := by
  refine .call (.after (fun _ => halts_peek) ?_)
  cases announces : level.announced s.peek.kind with
  | none =>
    rw [continued_of_none announces]
    exact .pure small id
  | some announcement =>
    obtain ⟨op, consumes⟩ := announcement
    rw [continued_of_some announces]
    refine .after (fun _ => halts_useUp) ?_
    refine ((operandFollows _).mono fun fits => fits.start consumes).bind fun right mid shorter => ?_
    have started := s.weight_start_le consumes
    exact follows_more operandFollows _ mid (by omega)
termination_by s.weight

theorem follows_chain (level : Level) {rule : Rule}
    (operandFollows : ∀ s, Follows build s.Fits (fun call => operand call level) depth s s.weight
      (Rule.run rule s))
    (s : Stream) :
    Follows build s.Fits (fun call => chain call level (operand call level)) depth s s.weight
      (Rule.run (Formulae.chain level.announced rule) s) := by
  rw [run_chain]
  exact (operandFollows s).bind fun left mid shorter => follows_more operandFollows left mid shorter

section

variable {levels : Nat}
  (powerFollows : ∀ s, Follows build s.Fits (fun call => call .power) depth s s.weight
    (Rule.run (Formulae.power maxDepth levels) s))
  (factorFollows : ∀ s, Follows build s.Fits (fun call => call .factor) depth s s.weight
    (Rule.run (Formulae.factor maxDepth levels) s))
  (s : Stream)

include powerFollows

theorem follows_term :
    Follows build s.Fits term depth s s.weight
      (Rule.run (Formulae.chain betweenPowers (Formulae.power maxDepth levels)) s) :=
  follows_chain .products powerFollows s

theorem follows_expression :
    Follows build s.Fits expression depth s s.weight
      (Rule.run (Formulae.expression maxDepth levels) s) :=
  follows_chain .sums (follows_term powerFollows) s

theorem follows_bracketed (opens : s.peek.kind = .openBracket) :
    Follows build s.Fits (fun call => bracketed call s.peek) depth s.next s.weight
      (Rule.run (Formulae.factor maxDepth (levels + 1)) s) := by
  rw [run_factor_openBracket opens]
  have shorter := s.weight_next_lt (by simp [opens])
  refine ((follows_expression powerFollows s.next).mono .next).bind fun inside rest shorter' => ?_
  refine .expect fun closes => ?_
  refine .after (fun _ => halts_take) ?_
  dsimp only
  have := rest.weight_next_le
  split
  next => exact .pure (by omega) .next
  next => exact .fail trivial

include factorFollows

theorem follows_power :
    Follows build s.Fits power depth s s.weight
      (Rule.run (Formulae.power maxDepth (levels + 1)) s) := by
  rw [run_power_succ]
  refine (factorFollows s).bind fun base mid shorter => ?_
  refine .after (fun _ => halts_peek) ?_
  dsimp only
  by_cases raised : mid.peek.kind = .power
  · simp only [if_pos raised]
    refine .after (fun _ => halts_take) ?_
    refine ((powerFollows mid.next).mono .next).bind fun exponent rest shorter' => ?_
    have := mid.weight_next_le
    exact .pure (by omega) id
  · simp only [if_neg raised]
    exact .pure shorter id

omit powerFollows

/-- Behind a function, the argument. -/
theorem follows_argument (f : Function) (small : s.weight ≤ bound) :
    Follows build s.Fits (fun call => do
        let argument ← call .factor
        pure (Expr.apply f argument))
      depth s bound (do
        let argument ← Rule.run (Formulae.factor maxDepth levels) s
        .ok (.apply f argument.1, argument.2)) :=
  (factorFollows s).bind fun _ _ shorter => .pure (Nat.lt_of_lt_of_le shorter small) id

theorem follows_word (text : s.peek.kind = .text) :
    Follows build s.Fits (fun call => word build call s.peek) depth s.next s.weight
      (Rule.run (Formulae.factor maxDepth (levels + 1)) s) := by
  have shorter : s.next.weight < s.weight := s.weight_next_lt (by simp [text])
  rw [run_factor_text text]
  unfold word
  cases reading : Word.read s.peek.letters with
  | constant c => exact .pure shorter .next
  | function f => exact (follows_argument factorFollows s.next f (Nat.le_of_lt shorter)).mono .next
  | applied f c => exact .pure shorter .next
  | glued f offset letter =>
    obtain ⟨position, given, exact⟩ | ⟨checked, large, missing⟩ :=
      build.advance?_cases s.peek.position offset
    · -- Behind the letter that is put back, the tokens weigh less than with the whole text.
      let last := Token.text position (String.singleton letter)
      have small : (s.next.prepend [last]).weight < s.weight := by
        have used := s.weight_next_add (by simp [text])
        have letters := Word.offset_of_read_glued reading
        have whole : s.peek.weight = 1 + s.peek.letters.toList.length := rfl
        have single : last.weight = 2 := by simp [last, Token.weight, Token.text, Token.letters?]
        have weight := s.next.weight_prepend_singleton last
        omega
      refine .after (fun _ => halts_advance given) (.after (fun _ => halts_putBack) ?_)
      have fit : s.Fits → (s.next.prepend [last]).Fits := fun fits =>
        fits.next.prepend (Token.fits_singleton position letter)
      refine (follows_argument factorFollows _ f (Nat.le_of_lt small)).congr fit fun fits => ?_
      simp only [last, exact (fits.peek text f offset letter reading)]
    · intro deepest
      refine .inr ⟨checked, fun fits => ?_, .after_fault (halts_advance_overflow missing)⟩
      exact Nat.not_lt.2 large (fits.peek text f offset letter reading)
  | var name => exact .pure shorter .next

include powerFollows

theorem follows_factor :
    Follows build s.Fits (factor build) depth s s.weight
      (Rule.run (Formulae.factor maxDepth (levels + 1)) s) := by
  refine .after (fun _ => halts_peek) ?_
  split
  next text =>
    refine .after (fun _ => halts_take) ?_
    exact follows_word factorFollows s text
  next minus =>
    rw [run_factor_minus minus]
    refine .after (fun _ => halts_take) ?_
    have shorter := s.weight_next_lt (by simp [minus])
    refine ((factorFollows s.next).mono .next).bind fun e rest shorter' => ?_
    exact .pure (by omega) id
  next opens =>
    refine .after (fun _ => halts_take) ?_
    exact follows_bracketed powerFollows s opens
  next notText notMinus notOpening =>
    rw [run_factor_other notText notMinus notOpening]
    refine .expect fun number => ?_
    refine .after (fun _ => halts_take) ?_
    exact .pure (s.weight_next_lt (by simp [number])) .next

end

/-- Powers and factors, with the levels that are left at a depth. -/
theorem follows_nested (build : Build) (depth : Nat) :
    (∀ s, Follows build s.Fits (fun call => call .power) depth s s.weight
      (Rule.run (Formulae.power maxDepth (maxDepth - depth)) s)) ∧
    ∀ s, Follows build s.Fits (fun call => call .factor) depth s s.weight
      (Rule.run (Formulae.factor maxDepth (maxDepth - depth)) s) := by
  induction left : maxDepth - depth generalizing depth with
  | zero =>
    have full : maxDepth ≤ depth := by omega
    exact ⟨fun s => .call (.refuse full), fun s => .call (.refuse full)⟩
  | succ levels induction =>
    have room : depth < maxDepth := by omega
    obtain ⟨powerFollows, factorFollows⟩ := induction (depth + 1) (by omega)
    exact ⟨fun s => .call (.enter room (follows_power powerFollows factorFollows s)),
      fun s => .call (.enter room (follows_factor powerFollows factorFollows s))⟩

/-- The expression of a stream, and what is left behind it. -/
def whole (s : Stream) : Except ParseError (Expr × Stream) := do
  let result ← Rule.run (Formulae.expression maxDepth maxDepth) s
  if result.2.peek.kind = .eof then .ok result
  else .error (.unexpected result.2.peek.kind .eof result.2.peek.position)

theorem parse_eq_whole (s : Stream) : s.parse = Prod.fst <$> whole s := by
  rw [Stream.parse, parseWithin_eq, whole, map_bind]
  refine congrArg _ (funext fun result => ?_)
  split <;> rfl

theorem follows_parse (build : Build) (s : Stream) :
    Follows build s.Fits parse 0 s s.weight (whole s) := by
  refine (follows_expression (follows_nested build 0).1 s).bind fun e rest shorter => ?_
  exact .expect fun _ => .pure shorter id

end

/-- The parser of a list ends with an expression or an error of the grammar.  All levels are left behind
it, and at no time are more than 512 powers and factors open. -/
def EndsSafely (build : Build) (tokens : List Token) (outcome : Except ParseError Expr) : Prop :=
  ∃ after, Ends build (fun call => parseList build call tokens) .start (.ok (outcome, after)) ∧
    (∀ cause, outcome = .error cause → IsGrammatical cause) ∧
    after.depth = 0 ∧ after.deepest ≤ 512

/-- The parser of a list breaks off at a position. -/
def BreaksOff (build : Build) (tokens : List Token) : Prop :=
  Ends build (fun call => parseList build call tokens) .start (.error .overflow)

variable {build : Build} {tokens : List Token}

theorem endsSafely_or_breaksOff (build : Build) (tokens : List Token) :
    (∃ outcome, EndsSafely build tokens outcome ∧
      (PositionsFit tokens → outcome = (Stream.ofList tokens).parse)) ∨
    build = .checked ∧ ¬ PositionsFit tokens ∧ BreaksOff build tokens := by
  obtain ⟨s, made, exact⟩ | ⟨checked, unfit, missing⟩ := Queue.make?_cases build tokens
  case inr => exact .inr ⟨checked, unfit, .after_fault (halts_fill_overflow missing)⟩
  have fit (fits : PositionsFit tokens) : s.Fits := exact fits ▸ Stream.fits_ofList fits.letters
  obtain ⟨outcome, rest, deepest, ends, limited, agrees⟩ | ⟨checked, unfit, ends⟩ :=
    follows_parse build s 0
  case inr => exact .inr ⟨checked, fun fits => unfit (fit fits), .after (halts_fill made) ends⟩
  refine .inl ⟨outcome, ⟨_, .after (halts_fill made) ends, ?_, rfl, limited⟩, fun fits => ?_⟩
  · rintro cause rfl
    exact agrees.isGrammatical
  · rw [← exact fits, parse_eq_whole]
    exact agrees.eq (fit fits)

/-- On the tokens of a text, no build breaks off. -/
theorem endsSafely_of_tokenize (build : Build) {source : String} {tokens : List Token}
    (accepted : tokenize source = .ok tokens) (short : source.toList.length + 2 < positionBound) :
    EndsSafely build tokens (Formulae.parse source) := by
  obtain ⟨outcome, safely, exact⟩ | ⟨-, unfit, -⟩ := endsSafely_or_breaksOff build tokens
  · obtain rfl := exact (.of_tokenize accepted short)
    rw [parse_of_tokenize accepted]
    exact safely
  · exact absurd (.of_tokenize accepted short) unfit

end Formulae.Stateful
