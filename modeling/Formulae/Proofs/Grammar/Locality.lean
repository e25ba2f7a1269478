import Formulae.Proofs.Grammar.Completeness
import Formulae.Proofs.Lexing.Shape

/-!
# What a rule looks at

A rule that succeeds stops at the first token that does not continue what it read (`Stops`).  Behind
an expression this is a closing bracket or the end of the input.

It looks at no token behind that one.  Wherever the tokens that it took stand before a token like
the one it stopped at, it takes the same tokens with the same tree (`Settles`).

Loops over operands are treated along their runs, by `continued_induction`.
-/

namespace Formulae

variable {limit levels : Nat} {announced : Announced} {operand : Rule} {left e : Expr}
  {s mid rest s' mid' rest' : Stream} {ts : List Token}

/-! ## Operands one after the other -/

theorem Rule.weight_lt_of_run {rule : Rule} (runs : Rule.run rule s = .ok (e, rest)) :
    rest.weight < s.weight := by
  obtain ⟨parsed, -, returned⟩ := map_eq_ok_iff.1 runs
  obtain ⟨-, rfl⟩ := Prod.mk.inj returned
  exact parsed.shorter

/-- The loop over operands stops, fails at the next operand, or goes on behind it. -/
theorem continued_induction
    {motive : Expr → Stream → Except ParseError (Expr × Stream) → Prop}
    (stop : ∀ {left s}, announced s.peek.kind = none → motive left s (.ok (left, s)))
    (fail : ∀ {left s op consumes cause}, announced s.peek.kind = some (op, consumes) →
      Rule.run operand (if consumes then s.next else s) = .error cause →
      motive left s (.error cause))
    (step : ∀ {left s op consumes right mid}, announced s.peek.kind = some (op, consumes) →
      Rule.run operand (if consumes then s.next else s) = .ok (right, mid) →
      motive (.binary op left right) mid
        (continued announced operand (.binary op left right) mid) →
      motive left s (continued announced operand (.binary op left right) mid))
    (left : Expr) (s : Stream) : motive left s (continued announced operand left s) := by
  cases announces : announced s.peek.kind with
  | none =>
    rw [continued_of_none announces]
    exact stop announces
  | some announcement =>
    obtain ⟨op, consumes⟩ := announcement
    rw [continued_of_some announces]
    cases outcome : Rule.run operand (if consumes then s.next else s) with
    | error cause =>
      rw [error_bind]
      exact fail announces outcome
    | ok result =>
      obtain ⟨right, mid⟩ := result
      have shorter : mid.weight < s.weight :=
        Nat.lt_of_lt_of_le (Rule.weight_lt_of_run outcome) (s.weight_start_le consumes)
      rw [ok_bind]
      exact step announces outcome (continued_induction stop fail step _ _)
termination_by s.weight

/-! ## Where a rule stops -/

/-- The rule stops at tokens of certain kinds only. -/
def Stops (stopping : Kind → Prop) (rule : Rule) : Prop :=
  ∀ (s rest : Stream) (e : Expr), Rule.run rule s = .ok (e, rest) → stopping rest.peek.kind

theorem continued_stops {stopping : Kind → Prop} (operandStops : Stops stopping operand)
    (stopped : stopping s.peek.kind)
    (runs : continued announced operand left s = .ok (e, rest)) :
    stopping rest.peek.kind ∧ announced rest.peek.kind = none := by
  refine continued_induction
    (motive := fun _ s outcome => stopping s.peek.kind → outcome = .ok (e, rest) →
      stopping rest.peek.kind ∧ announced rest.peek.kind = none)
    ?stop ?fail ?step left s stopped runs
  case stop =>
    rintro left s silent stopped returned
    obtain ⟨-, rfl⟩ := Prod.mk.inj (Except.ok.inj returned)
    exact ⟨stopped, silent⟩
  case fail =>
    rintro left s op consumes cause - - - failed
    cases failed
  case step =>
    rintro left s op consumes right mid - operandRuns induction - runs
    exact induction (operandStops _ _ _ operandRuns) runs

theorem chain_stops {stopping : Kind → Prop} (operandStops : Stops stopping operand) :
    Stops (fun kind => stopping kind ∧ announced kind = none) (chain announced operand) := by
  intro s rest e runs
  rw [run_chain, bind_eq_ok_iff] at runs
  obtain ⟨⟨first, mid⟩, operandRuns, runs⟩ := runs
  exact continued_stops operandStops (operandStops _ _ _ operandRuns) runs

theorem power_stops (limit levels : Nat) : Stops (· ≠ .power) (power limit levels) := by
  induction levels with
  | zero =>
    intro s rest e runs
    rw [run_power_zero] at runs
    cases runs
  | succ levels induction =>
    intro s rest e runs
    rw [run_power_succ, bind_eq_ok_iff] at runs
    obtain ⟨⟨base, mid⟩, -, runs⟩ := runs
    dsimp only at runs
    split at runs
    next =>
      rw [bind_eq_ok_iff] at runs
      obtain ⟨⟨exponent, last⟩, exponentRuns, returned⟩ := runs
      obtain ⟨-, rfl⟩ := Prod.mk.inj (Except.ok.inj returned)
      exact induction _ _ _ exponentRuns
    next notRaised =>
      obtain ⟨-, rfl⟩ := Prod.mk.inj (Except.ok.inj runs)
      exact notRaised

theorem term_stops (limit levels : Nat) :
    Stops (fun kind => kind ≠ .power ∧ betweenPowers kind = none)
      (chain betweenPowers (power limit levels)) :=
  chain_stops (power_stops limit levels)

theorem closes_or_ends {kind : Kind} (notPower : kind ≠ .power) (noPower : betweenPowers kind = none)
    (noTerm : betweenTerms kind = none) : kind = .closeBracket ∨ kind = .eof := by
  cases kind with
  | closeBracket => exact .inl rfl
  | eof => exact .inr rfl
  | power => exact absurd rfl notPower
  | plus | minus => cases noTerm
  | number | text | times | divide | openBracket => cases noPower

/-- An expression goes on up to a closing bracket or to the end of the input. -/
theorem expression_stops (limit levels : Nat) :
    Stops (fun kind => kind = .closeBracket ∨ kind = .eof) (expression limit levels) := by
  intro s rest e runs
  obtain ⟨⟨notPower, noPower⟩, noTerm⟩ := chain_stops (term_stops limit levels) _ _ _ runs
  exact closes_or_ends notPower noPower noTerm

/-! ## What a rule takes elsewhere -/

/-- The rule takes derived tokens, and takes them in the same way wherever they stand in front of
the token that it stops at. -/
def Settles (symbol : Symbol) (levels : Nat) (rule : Rule) : Prop :=
  ∀ {s rest : Stream} {e : Expr}, Rule.run rule s = .ok (e, rest) →
    ∃ n ts, n ≤ levels ∧ s.Takes ts rest ∧ Derives symbol n ts e ∧
      ∀ {s' rest' : Stream}, s'.Takes ts rest' → rest'.peek = rest.peek →
        Rule.run rule s' = .ok (e, rest')

theorem factor_settles (limit levels : Nat) : Settles .factor levels (factor limit levels) := by
  intro s rest e runs
  obtain ⟨n, ts, within, takes, derivation⟩ := (power_factor_sound limit levels).2 runs
  refine ⟨n, ts, within, takes, derivation, fun takes' _ => ?_⟩
  exact (derivation.readAs limit levels takes').enough within

theorem power_settles (limit levels : Nat) : Settles .power levels (power limit levels) := by
  intro s rest e runs
  obtain ⟨n, ts, within, takes, derivation⟩ := (power_factor_sound limit levels).1 runs
  refine ⟨n, ts, within, takes, derivation, fun takes' same => ?_⟩
  have stops := power_stops limit levels _ _ _ runs
  rw [← same] at stops
  exact (derivation.readAs limit levels takes' stops).enough within

theorem term_settles (limit levels : Nat) :
    Settles .term levels (chain betweenPowers (power limit levels)) := by
  intro s rest e runs
  obtain ⟨n, ts, within, takes, derivation⟩ :=
    chain_sound joins_betweenPowers (power_factor_sound limit levels).1 runs
  refine ⟨n, ts, within, takes, derivation, fun takes' same => ?_⟩
  obtain ⟨notPower, silent⟩ := term_stops limit levels _ _ _ runs
  rw [← same] at notPower silent
  rw [(derivation.readAs limit levels takes' notPower).enough within, continued_of_none silent]

theorem expression_settles (limit levels : Nat) :
    Settles .expression levels (expression limit levels) := by
  intro s rest e runs
  obtain ⟨n, ts, within, takes, derivation⟩ := expression_sound limit levels runs
  refine ⟨n, ts, within, takes, derivation, fun takes' same => ?_⟩
  obtain ⟨⟨notPower, noPower⟩, noTerm⟩ := chain_stops (term_stops limit levels) _ _ _ runs
  rw [← same] at notPower noPower noTerm
  rw [(derivation.readAs limit levels takes' notPower noPower).enough within,
    continued_of_none noTerm]

end Formulae
