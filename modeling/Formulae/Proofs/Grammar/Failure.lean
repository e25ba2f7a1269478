import Formulae.Proofs.Grammar.Brackets
import Formulae.Proofs.Grammar.Locality

/-!
# How a rule fails

A rule that fails reports too deep a nesting or stops at a wrong token.  There are three ways in
which a token is wrong inside an expression (`Wrong`).

* No factor begins with it, and a factor is due.
* It is the end of the input, and a bracket is open.
* It closes a bracket of another family.

The tokens before it can be completed (`Blocked.completed`): by a number, if a factor is due, and by
a closing bracket for each bracket that is open.  And the rule fails in the same way wherever the
same tokens stand in front of the wrong one (`Blocked.fails`), so that nothing behind it helps.

`Refuses.after` carries a failure from a rule to one that runs it behind further tokens.  The
induction is that of soundness: along the levels for powers and factors, and along the operands for
an expression or a term.
-/

namespace Formulae

open Formulae.Text (Family)

/-! ## Wrong tokens -/

/-- A factor may begin with a token of the kind. -/
def Kind.BeginsFactor (kind : Kind) : Prop :=
  kind = .number ∨ kind = .text ∨ kind = .minus ∨ kind = .openBracket

/-- The token is wrong where certain brackets are open.  The third argument is what is missing in
front of the closing brackets, and the last one is the error. -/
inductive Wrong (brackets : List Token) (t : Token) : List Token → ParseError → Prop where
  | operand : ¬ t.kind.BeginsFactor →
      Wrong brackets t [.number t.position 0] (.unexpected t.kind .number t.position)
  | unclosed : t.kind = .eof → brackets ≠ [] →
      Wrong brackets t [] (.unexpected t.kind .closeBracket t.position)
  | mismatched {opening : Token} {outer : List Token} : brackets = opening :: outer →
      t.kind = .closeBracket → opening.family? ≠ t.family? →
      Wrong brackets t [] (.mismatch (opening.glyph?.getD '?') (t.glyph?.getD '?') t.position)

section

variable {brackets missing : List Token} {t : Token} {err : ParseError}

theorem Wrong.not_beginsFactor (wrong : Wrong brackets t missing err) : ¬ t.kind.BeginsFactor := by
  cases wrong with
  | operand noFactor => exact noFactor
  | unclosed kind | mismatched _ kind => simp [Kind.BeginsFactor, kind]

/-- Brackets farther out change nothing. -/
theorem Wrong.append (wrong : Wrong brackets t missing err) (outer : List Token) :
    Wrong (brackets ++ outer) t missing err := by
  cases wrong with
  | operand noFactor => exact .operand noFactor
  | unclosed kind isOpen => exact .unclosed kind (by simp [isOpen])
  | mismatched innermost kind families =>
    exact .mismatched (by rw [innermost, List.cons_append]) kind families

end

/-! ## Failures -/

/-- The tokens derive from the symbol, with no more than a number of levels. -/
def DerivableWithin (symbol : Symbol) (levels : Nat) (ts : List Token) : Prop :=
  ∃ n e, n ≤ levels ∧ Derives symbol n ts e

/-- A run stops at the wrong token in front of `rest`, having taken the tokens `ts`. -/
structure Blocked (complete : List Token → Prop)
    (run : Stream → Except ParseError (Expr × Stream)) (err : ParseError) (s : Stream)
    (ts : List Token) (rest : Stream) (brackets missing : List Token) : Prop where
  takes : s.Takes ts rest
  /-- The brackets that the tokens leave open. -/
  opened : ∀ stack, opened stack ts = brackets ++ stack
  wrong : Wrong brackets rest.peek missing err
  /-- What is missing and closing brackets complete the tokens. -/
  completed : complete (ts ++ (missing ++ brackets.map Token.closer))
  /-- Nothing behind the wrong token makes a difference. -/
  fails : ∀ {s' rest' : Stream}, s'.Takes ts rest' → rest'.peek = rest.peek → run s' = .error err

/-- A run fails because of the nesting or at a wrong token. -/
def Refuses (complete : List Token → Prop) (run : Stream → Except ParseError (Expr × Stream))
    (err : ParseError) (s : Stream) : Prop :=
  (∃ limit position, err = .tooDeep limit position) ∨
    ∃ ts rest brackets missing, Blocked complete run err s ts rest brackets missing

section

variable {complete complete' : List Token → Prop}
  {run run' : Stream → Except ParseError (Expr × Stream)} {err : ParseError}
  {s mid rest mid' rest' : Stream} {ts us : List Token}

theorem Stream.Takes.peek_congr (takes : mid.Takes ts rest) (takes' : mid'.Takes ts rest')
    (same : rest'.peek = rest.peek) : mid'.peek = mid.peek := by
  cases ts with
  | nil => rw [takes.eq_of_nil, takes'.eq_of_nil, same]
  | cons t ts => rw [takes.peek_eq, takes'.peek_eq]

/-- A failure behind further tokens, which may open brackets. -/
theorem Refuses.after (refuses : Refuses complete run err mid) (outer : List Token)
    (takes : s.Takes us mid) (nested : ∀ stack, opened stack us = outer ++ stack)
    (completes : ∀ {ts more : List Token} {rest : Stream}, mid.Takes ts rest →
      ¬ rest.peek.kind.BeginsFactor → complete (ts ++ more) →
      complete' (us ++ (ts ++ more) ++ outer.map Token.closer))
    (runs : ∀ {s' mid' : Stream}, s'.Takes us mid' → mid'.peek = mid.peek →
      run mid' = .error err → run' s' = .error err) :
    Refuses complete' run' err s := by
  rcases refuses with tooDeep | ⟨ts, rest, brackets, missing, blocked⟩
  · exact .inl tooDeep
  refine .inr ⟨us ++ ts, rest, brackets ++ outer, missing, takes.append blocked.takes, ?_,
    blocked.wrong.append outer, ?_, ?_⟩
  · intro stack
    rw [opened_append, nested, blocked.opened, List.append_assoc]
  · have whole := completes blocked.takes blocked.wrong.not_beginsFactor blocked.completed
    simpa using whole
  · intro s' rest' takes' same
    obtain ⟨mid', takesFirst, takesSecond⟩ := takes'.split
    exact runs takesFirst (blocked.takes.peek_congr takesSecond same)
      (blocked.fails takesSecond same)

/-- A failure behind further tokens that leave no bracket open. -/
theorem Refuses.behind (refuses : Refuses complete run err mid) (takes : s.Takes us mid)
    (nested : ∀ stack, opened stack us = stack)
    (completes : ∀ {ts more : List Token} {rest : Stream}, mid.Takes ts rest →
      ¬ rest.peek.kind.BeginsFactor → complete (ts ++ more) → complete' (us ++ (ts ++ more)))
    (runs : ∀ {s' mid' : Stream}, s'.Takes us mid' → mid'.peek = mid.peek →
      run mid' = .error err → run' s' = .error err) :
    Refuses complete' run' err s := by
  refine refuses.after [] takes nested ?_ runs
  intro ts more rest takesMore wrong complete
  rw [List.map_nil, List.append_nil]
  exact completes takesMore wrong complete

end

/-! ## Operands -/

/-- The rule fails because of the nesting or at a wrong token. -/
def Rule.Refusing (symbol : Symbol) (levels : Nat) (rule : Rule) : Prop :=
  ∀ (s : Stream) (err : ParseError), Rule.run rule s = .error err →
    Refuses (DerivableWithin symbol levels) (Rule.run rule) err s

/-- A token that announces an operator is no bracket, or it stays and begins the operand. -/
structure Announced.Regular (announced : Announced) : Prop where
  consumed {kind : Kind} {op : Operator} : announced kind = some (op, true) → ¬ kind.IsBracket
  kept {kind : Kind} {op : Operator} : announced kind = some (op, false) → kind.BeginsFactor

theorem regular_betweenTerms : Announced.Regular betweenTerms where
  consumed {kind _} announces := by
    cases kind <;> simp [betweenTerms, Kind.IsBracket] at announces ⊢
  kept {kind _} announces := by
    cases kind <;> simp [betweenTerms] at announces

theorem regular_betweenPowers : Announced.Regular betweenPowers where
  consumed {kind _} announces := by
    cases kind <;> simp [betweenPowers, Kind.IsBracket] at announces ⊢
  kept {kind _} announces := by
    cases kind <;> simp [betweenPowers, Kind.BeginsFactor] at announces ⊢

section

variable {announced : Announced} {operand : Rule} {inner outer : Symbol} {levels m n : Nat}
  {left right : Expr} {op : Operator} {consumes : Bool} {s mid : Stream} {ts us : List Token}
  {err : ParseError}

theorem Joins.kind_ne_eof {kind : Kind} {announcement : Operator × Bool}
    (joins : Joins announced inner outer) (announces : announced kind = some announcement) :
    kind ≠ .eof := by
  rintro rfl
  rw [joins.eof] at announces
  cases announces

/-- The operand behind an announcing token fails. -/
theorem refuses_operand (joins : Joins announced inner outer) (regular : announced.Regular)
    (refusing : Rule.Refusing inner levels operand) (within : m ≤ levels)
    (before : Derives outer m ts left) (announces : announced s.peek.kind = some (op, consumes))
    (fails : Rule.run operand (if consumes then s.next else s) = .error err) :
    Refuses (fun us => DerivableWithin outer levels (ts ++ us)) (continued announced operand left)
      err s := by
  have unfinished := joins.kind_ne_eof announces
  cases consumes with
  | true =>
    have refuses := refusing s.next err fails
    refine refuses.behind (Stream.takes_next unfinished) ?_ ?_ ?_
    · intro stack
      exact Token.nest_other (regular.consumed announces)
    · rintro vs more rest - - ⟨n, right, withinRight, derivation⟩
      refine ⟨max m n, .binary op left right, Nat.max_le.2 ⟨within, withinRight⟩, ?_⟩
      simpa using joins.between announces before derivation
    · intro s' mid' takes _ failsElsewhere
      have announces' : announced s'.peek.kind = some (op, true) := by
        rw [takes.peek_eq, announces]
      rw [continued_of_some announces', if_pos rfl, takes.next.eq_of_nil, failsElsewhere, error_bind]
  | false =>
    have refuses := refusing s err fails
    refine refuses.behind (.nil s) (fun _ => rfl) ?_ ?_
    · rintro vs more rest takes noFactor ⟨n, right, withinRight, derivation⟩
      refine ⟨max m n, .binary op left right, Nat.max_le.2 ⟨within, withinRight⟩, ?_⟩
      cases vs with
      | nil =>
        rw [← takes.eq_of_nil] at noFactor
        exact absurd (regular.kept announces) noFactor
      | cons t vs =>
        obtain rfl := takes.peek_eq
        simpa using joins.beginning announces before derivation
    · intro s' mid' takes same failsElsewhere
      obtain rfl := takes.eq_of_nil
      rw [← same] at announces
      rw [continued_of_some announces, if_neg Bool.false_ne_true, failsElsewhere, error_bind]

/-- What an announcing token and the operand behind it do to a loop over operands. -/
theorem continued_step (joins : Joins announced inner outer)
    (settles : Settles inner levels operand) (within : m ≤ levels)
    (before : Derives outer m ts left) (announces : announced s.peek.kind = some (op, consumes))
    (runs : Rule.run operand (if consumes then s.next else s) = .ok (right, mid)) :
    ∃ n us, n ≤ levels ∧ s.Takes us mid ∧ Derives outer n (ts ++ us) (.binary op left right) ∧
      ∀ {s' mid' : Stream}, s'.Takes us mid' → mid'.peek = mid.peek →
        continued announced operand left s' =
          continued announced operand (.binary op left right) mid' := by
  have unfinished := joins.kind_ne_eof announces
  obtain ⟨n, us, withinRight, takes, derivation, elsewhere⟩ := settles runs
  have bound : max m n ≤ levels := Nat.max_le.2 ⟨within, withinRight⟩
  cases consumes with
  | true =>
    refine ⟨max m n, s.peek :: us, bound, (Stream.takes_next unfinished).append takes,
      joins.between announces before derivation, fun takes' same => ?_⟩
    rw [← takes'.peek_eq] at announces
    rw [continued_of_some announces, if_pos rfl, elsewhere takes'.next same, ok_bind]
  | false =>
    change s.Takes us mid at takes
    cases us with
    | nil => exact absurd rfl derivation.ne_nil
    | cons t us =>
      obtain rfl := takes.peek_eq
      refine ⟨max m n, s.peek :: us, bound, takes, joins.beginning announces before derivation,
        fun takes' same => ?_⟩
      rw [← takes'.peek_eq] at announces
      rw [continued_of_some announces, if_neg Bool.false_ne_true, elsewhere takes' same, ok_bind]

theorem continued_refuses (joins : Joins announced inner outer) (regular : announced.Regular)
    (settles : Settles inner levels operand) (refusing : Rule.Refusing inner levels operand)
    (within : m ≤ levels) (before : Derives outer m ts left)
    (fails : continued announced operand left s = .error err) :
    Refuses (fun us => DerivableWithin outer levels (ts ++ us)) (continued announced operand left)
      err s := by
  refine continued_induction
    (motive := fun left s outcome => ∀ {m ts}, m ≤ levels → Derives outer m ts left →
      outcome = .error err → Refuses (fun us => DerivableWithin outer levels (ts ++ us))
        (continued announced operand left) err s)
    ?stop ?fail ?step left s within before fails
  case stop =>
    intro left s _ m ts _ _ fails
    cases fails
  case fail =>
    rintro left s op consumes cause announces operandFails m ts within before failed
    cases failed
    exact refuses_operand joins regular refusing within before announces operandFails
  case step =>
    intro left s op consumes right mid announces runs induction m ts within before fails
    obtain ⟨n, us, bound, takes, derivation, elsewhere⟩ :=
      continued_step joins settles within before announces runs
    refine (induction bound derivation fails).behind takes ?_ ?_ ?_
    · intro stack
      have balanced := derivation.opened_eq stack
      rwa [opened_append, before.opened_eq] at balanced
    · intro vs more rest _ _ complete
      simpa using complete
    · intro s' mid' takes' same failsElsewhere
      rw [elsewhere takes' same, failsElsewhere]

theorem chain_refusing (joins : Joins announced inner outer) (regular : announced.Regular)
    (settles : Settles inner levels operand) (refusing : Rule.Refusing inner levels operand) :
    Rule.Refusing outer levels (chain announced operand) := by
  intro s err fails
  rw [run_chain, bind_eq_error_iff] at fails
  rcases fails with fails | ⟨⟨first, mid⟩, runs, fails⟩
  · refine (refusing s err fails).behind (.nil s) (fun _ => rfl) ?_ ?_
    · rintro ts more rest - - ⟨n, e, within, derivation⟩
      exact ⟨n, e, within, by simpa using joins.single derivation⟩
    · intro s' mid' takes _ failsElsewhere
      rw [takes.eq_of_nil, run_chain, failsElsewhere, error_bind]
  · obtain ⟨n, us, within, takes, derivation, elsewhere⟩ := settles runs
    have refuses := continued_refuses joins regular settles refusing within
      (joins.single derivation) fails
    refine refuses.behind takes derivation.opened_eq ?_ ?_
    · intro ts more rest _ _ complete
      simpa using complete
    · intro s' mid' takes' same failsElsewhere
      rw [run_chain, elsewhere takes' same, ok_bind, failsElsewhere]

end

/-! ## Powers and factors -/

section

variable {limit levels : Nat}

theorem power_refusing_succ (factorRefusing : Rule.Refusing .factor levels (factor limit levels))
    (powerRefusing : Rule.Refusing .power levels (power limit levels)) :
    Rule.Refusing .power (levels + 1) (power limit (levels + 1)) := by
  intro s err fails
  rw [run_power_succ, bind_eq_error_iff] at fails
  rcases fails with fails | ⟨⟨base, mid⟩, runs, fails⟩
  · refine (factorRefusing s err fails).behind (.nil s) (fun _ => rfl) ?_ ?_
    · rintro ts more rest - - ⟨n, e, within, derivation⟩
      exact ⟨n + 1, e, Nat.succ_le_succ within, .ofFactor derivation⟩
    · intro s' mid' takes _ failsElsewhere
      rw [takes.eq_of_nil, run_power_succ, failsElsewhere, error_bind]
  obtain ⟨m, us, within, takes, derivation, elsewhere⟩ := factor_settles limit levels runs
  dsimp only at fails
  split at fails
  next raised =>
    rw [bind_eq_error_iff] at fails
    rcases fails with fails | ⟨exponent, -, returned⟩
    · have takesOperator : mid.Takes [mid.peek] mid.next := Stream.takes_next (by simp [raised])
      refine (powerRefusing mid.next err fails).behind (takes.append takesOperator) ?_ ?_ ?_
      · intro stack
        rw [opened_append, derivation.opened_eq]
        exact Token.nest_other (by simp [Kind.IsBracket, raised])
      · rintro ts more rest - - ⟨n, exponent, withinExponent, exponentDerivation⟩
        have whole := Derives.raised derivation raised exponentDerivation
        exact ⟨max m n + 1, .power base exponent, by omega, by simpa using whole⟩
      · intro s' mid' takes' _ failsElsewhere
        obtain ⟨base', takesBase, takesOperator'⟩ := takes'.split
        have same : base'.peek = mid.peek := takesOperator'.peek_eq
        rw [run_power_succ, elsewhere takesBase same, ok_bind]
        dsimp only
        rw [same, if_pos raised, takesOperator'.next.eq_of_nil, failsElsewhere, error_bind]
    · cases returned
  next => cases fails

/-- A rule that runs behind a token which is no bracket. -/
theorem Refuses.behind_token {symbol symbol' : Symbol} {m : Nat}
    {run run' : Stream → Except ParseError (Expr × Stream)} {err : ParseError} {s : Stream}
    (refuses : Refuses (DerivableWithin symbol m) run err s.next)
    (unfinished : s.peek.kind ≠ .eof) (other : ¬ s.peek.kind.IsBracket)
    (derives : ∀ {n ts e}, Derives symbol n ts e →
      ∃ e', Derives symbol' (n + 1) (s.peek :: ts) e')
    (runs : ∀ {s' : Stream}, s'.peek = s.peek → run s'.next = .error err → run' s' = .error err) :
    Refuses (DerivableWithin symbol' (m + 1)) run' err s := by
  refine refuses.behind (Stream.takes_next unfinished) (fun _ => Token.nest_other other) ?_ ?_
  · rintro ts more rest - - ⟨n, e, within, derivation⟩
    obtain ⟨e', longer⟩ := derives derivation
    exact ⟨n + 1, e', Nat.succ_le_succ within, longer⟩
  · intro s' mid' takes' _ failsElsewhere
    refine runs takes'.peek_eq ?_
    rwa [takes'.next.eq_of_nil]

/-- A glued letter is a factor of its own, so it can only fail because of the nesting. -/
theorem tooDeep_of_glued (factorRefusing : Rule.Refusing .factor levels (factor limit levels))
    {position : Nat} {letter : Char} {s : Stream} {err : ParseError}
    (fails : Rule.run (factor limit levels)
      (s.prepend [Token.text position (String.singleton letter)]) = .error err) :
    ∃ limit position, err = .tooDeep limit position := by
  rcases factorRefusing _ err fails with tooDeep | ⟨ts, rest, brackets, missing, blocked⟩
  · exact tooDeep
  cases ts with
  | nil =>
    have noFactor := blocked.wrong.not_beginsFactor
    rw [← blocked.takes.eq_of_nil] at noFactor
    exact absurd (.inr (.inl rfl)) noFactor
  | cons t ts =>
    obtain ⟨n, e, within, derivation⟩ := blocked.completed
    obtain rfl := blocked.takes.peek_eq
    obtain ⟨rfl, nothing⟩ := List.append_eq_nil_iff.1 derivation.single_letter
    rw [nothing] at derivation
    change Derives .factor n [Token.text position (String.singleton letter)] e at derivation
    have reads := derivation.readAs limit levels (s.takes_prepend _)
    rw [reads.enough within] at fails
    cases fails

theorem factor_text_refusing (factorRefusing : Rule.Refusing .factor levels (factor limit levels))
    {s : Stream} {err : ParseError} (text : s.peek.kind = .text)
    (fails : Rule.run (factor limit (levels + 1)) s = .error err) :
    Refuses (DerivableWithin .factor (levels + 1)) (Rule.run (factor limit (levels + 1))) err s := by
  have reading := reading_read s.peek.letters
  rw [run_factor_text text] at fails
  split at fails
  next => cases fails
  next f word =>
    rw [bind_eq_error_iff] at fails
    rcases fails with fails | ⟨argument, -, returned⟩
    · rw [word] at reading
      refine (factorRefusing s.next err fails).behind_token (by simp [text])
        (by simp [Kind.IsBracket, text]) ?_ ?_
      · intro n ts u derivation
        exact ⟨.apply f u, .function text reading derivation⟩
      · intro s' same failsElsewhere
        rw [run_factor_text (same ▸ text), same, word]
        dsimp only
        rw [failsElsewhere, error_bind]
    · cases returned
  next => cases fails
  next f offset letter word =>
    rw [bind_eq_error_iff] at fails
    rcases fails with fails | ⟨argument, -, returned⟩
    · exact .inl (tooDeep_of_glued factorRefusing fails)
    · cases returned
  next => cases fails

theorem expression_refusing_of_power
    (powerRefusing : Rule.Refusing .power levels (power limit levels)) :
    Rule.Refusing .expression levels (expression limit levels) :=
  chain_refusing joins_betweenTerms regular_betweenTerms (term_settles limit levels)
    (chain_refusing joins_betweenPowers regular_betweenPowers (power_settles limit levels)
      powerRefusing)

/-- The bracket of an expression is the only one that is open behind it. -/
theorem refuses_closing {s mid : Stream} {inside : Expr} {err : ParseError}
    (opens : s.peek.kind = .openBracket)
    (runs : Rule.run (expression limit levels) s.next = .ok (inside, mid))
    (wrong : Wrong [s.peek] mid.peek [] err)
    (fails : ∀ {s' mid' : Stream}, s'.peek = s.peek → mid'.peek = mid.peek →
      Rule.run (expression limit levels) s'.next = .ok (inside, mid') →
      Rule.run (factor limit (levels + 1)) s' = .error err) :
    Refuses (DerivableWithin .factor (levels + 1)) (Rule.run (factor limit (levels + 1))) err s := by
  have takesOpening : s.Takes [s.peek] s.next := Stream.takes_next (by simp [opens])
  obtain ⟨n, us, within, takes, derivation, elsewhere⟩ := expression_settles limit levels runs
  refine .inr ⟨s.peek :: us, mid, [s.peek], [], takesOpening.append takes, ?_, wrong, ?_, ?_⟩
  · intro stack
    rw [opened_cons, derivation.opened_eq, Token.nest_openBracket opens, List.singleton_append]
  · exact ⟨n + 1, inside, Nat.succ_le_succ within,
      .bracketed opens derivation s.peek.closer_kind s.peek.closer_family?.symm⟩
  · intro s' mid' takes' same
    exact fails takes'.peek_eq same (elsewhere takes'.next same)

/-- Behind an opening bracket the inside fails, or it is not closed, or not by its own family. -/
theorem factor_bracket_refusing (powerRefusing : Rule.Refusing .power levels (power limit levels))
    {s : Stream} {err : ParseError} (opens : s.peek.kind = .openBracket)
    (fails : Rule.run (factor limit (levels + 1)) s = .error err) :
    Refuses (DerivableWithin .factor (levels + 1)) (Rule.run (factor limit (levels + 1))) err s := by
  rw [run_factor_openBracket opens, bind_eq_error_iff] at fails
  rcases fails with fails | ⟨⟨inside, mid⟩, runs, fails⟩
  · have takesOpening : s.Takes [s.peek] s.next := Stream.takes_next (by simp [opens])
    refine (expression_refusing_of_power powerRefusing s.next err fails).after [s.peek] takesOpening
      ?_ ?_ ?_
    · intro stack
      exact Token.nest_openBracket opens
    · rintro ts more rest - - ⟨n, e, within, derivation⟩
      have closed := Derives.bracketed opens derivation s.peek.closer_kind
        s.peek.closer_family?.symm
      exact ⟨n + 1, e, Nat.succ_le_succ within, by simpa using closed⟩
    · intro s' mid' takes' _ failsElsewhere
      rw [run_factor_openBracket (takes'.peek_eq ▸ opens), takes'.next.eq_of_nil, failsElsewhere,
        error_bind]
  dsimp only at fails
  split at fails
  next closes =>
    split at fails
    next => cases fails
    next families =>
      cases fails
      refine refuses_closing opens runs (.mismatched rfl closes families) ?_
      intro s' mid' same sameClosing runsElsewhere
      rw [run_factor_openBracket (same ▸ opens), runsElsewhere, ok_bind]
      dsimp only
      rw [same, sameClosing, if_pos closes, if_neg families]
  next notClosed =>
    cases fails
    have finished := (expression_stops limit levels _ _ _ runs).resolve_left notClosed
    refine refuses_closing opens runs (.unclosed finished (List.cons_ne_nil _ _)) ?_
    intro s' mid' same sameClosing runsElsewhere
    rw [run_factor_openBracket (same ▸ opens), runsElsewhere, ok_bind]
    dsimp only
    rw [sameClosing, if_neg notClosed]

theorem factor_refusing_succ (factorRefusing : Rule.Refusing .factor levels (factor limit levels))
    (powerRefusing : Rule.Refusing .power levels (power limit levels)) :
    Rule.Refusing .factor (levels + 1) (factor limit (levels + 1)) := by
  intro s err fails
  by_cases text : s.peek.kind = .text
  · exact factor_text_refusing factorRefusing text fails
  by_cases opens : s.peek.kind = .openBracket
  · exact factor_bracket_refusing powerRefusing opens fails
  by_cases minus : s.peek.kind = .minus
  · rw [run_factor_minus minus, bind_eq_error_iff] at fails
    rcases fails with fails | ⟨operand, -, returned⟩
    · refine (factorRefusing s.next err fails).behind_token (by simp [minus])
        (by simp [Kind.IsBracket, minus]) ?_ ?_
      · intro n ts e derivation
        exact ⟨e.negate, .negated minus derivation⟩
      · intro s' same failsElsewhere
        rw [run_factor_minus (same ▸ minus), failsElsewhere, error_bind]
    · cases returned
  · have failsHere := fails
    rw [run_factor_other text minus opens] at fails
    split at fails
    next => cases fails
    next notNumber =>
      cases fails
      have noFactor : ¬ s.peek.kind.BeginsFactor := by
        simp [Kind.BeginsFactor, text, opens, minus, notNumber]
      refine .inr ⟨[], s, [], _, .nil s, fun _ => rfl, .operand noFactor, ?_, ?_⟩
      · exact ⟨1, _, Nat.succ_pos levels, .number rfl⟩
      · intro s' rest' takes' same
        obtain rfl := takes'.eq_of_nil
        rw [run_factor_other (same ▸ text) (same ▸ minus) (same ▸ opens), if_neg (same ▸ notNumber),
          same]

theorem power_factor_refusing (limit levels : Nat) :
    Rule.Refusing .power levels (power limit levels) ∧
      Rule.Refusing .factor levels (factor limit levels) := by
  induction levels with
  | zero =>
    constructor
    · intro s err fails
      rw [run_power_zero] at fails
      cases fails
      exact .inl ⟨_, _, rfl⟩
    · intro s err fails
      rw [run_factor_zero] at fails
      cases fails
      exact .inl ⟨_, _, rfl⟩
  | succ levels induction =>
    obtain ⟨powerRefusing, factorRefusing⟩ := induction
    exact ⟨power_refusing_succ factorRefusing powerRefusing,
      factor_refusing_succ factorRefusing powerRefusing⟩

theorem expression_refusing (limit levels : Nat) :
    Rule.Refusing .expression levels (expression limit levels) :=
  expression_refusing_of_power (power_factor_refusing limit levels).1

end

end Formulae
