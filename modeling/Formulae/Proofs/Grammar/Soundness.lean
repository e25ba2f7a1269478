import Formulae.Proofs.Grammar.Rules

/-!
# What the rules accept is derived

Each rule takes tokens that derive from its symbol, with the tree that it returns, and nests no
more levels than it was given (`power_sound`, `factor_sound`, `expression_sound`).

The induction is on the levels for powers and factors, and inside it on the number of tokens for
the operands of an expression or a term.  The last letter of a glued text is read from a stream to
which it was put back.  That the rule takes this letter and nothing behind it is
`Derives.single_letter`.
-/

namespace Formulae

variable {limit levels : Nat}

/-! ## Derivations and their tokens -/

theorem Derives.ne_nil {symbol : Symbol} {n : Nat} {ts : List Token} {e : Expr}
    (derivation : Derives symbol n ts e) : ts ≠ [] := by
  induction derivation with
  | ofTerm _ induction | ofPower _ induction | ofFactor _ induction => exact induction
  | sum | product | juxtaposition | raised => simp
  | negated | bracketed | number | constant | function | applied | glued | var => simp

/-- No function has a name of one letter. -/
theorem not_reading_function_singleton {letter : Char} {f : Function} :
    ¬ Reading (String.singleton letter) (.function f) := by
  intro reading
  cases reading with
  | function _ listed =>
    have long : ∀ entry ∈ Function.names, entry.1.toList.length ≠ 1 := by decide
    exact long _ listed (by simp)

/-- A factor that begins with a text of one letter is this letter. -/
theorem Derives.single_letter {n position : Nat} {letter : Char} {ts : List Token} {e : Expr}
    (derivation : Derives .factor n (Token.text position (String.singleton letter) :: ts) e) :
    ts = [] := by
  cases derivation with
  | negated minus => cases minus
  | bracketed opens => cases opens
  | number number => cases number
  | function _ reading => exact absurd reading not_reading_function_singleton
  | constant | applied | glued | var => rfl

/-! ## Operands -/

/-- The rule takes tokens that derive from the symbol, with no more than a number of levels. -/
def Sound (symbol : Symbol) (levels : Nat) (rule : Rule) : Prop :=
  ∀ {s rest : Stream} {e : Expr}, Rule.run rule s = .ok (e, rest) →
    ∃ n ts, n ≤ levels ∧ s.Takes ts rest ∧ Derives symbol n ts e

/-- The announcements between operands of `inner` are those that `outer` is built with. -/
structure Joins (announced : Announced) (inner outer : Symbol) : Prop where
  /-- The end of the input announces nothing. -/
  eof : announced .eof = none
  /-- An operand is an operation without operators. -/
  single {n : Nat} {ts : List Token} {e : Expr} : Derives inner n ts e → Derives outer n ts e
  /-- An announcing token that is used up stands between the operands. -/
  between {m n : Nat} {ts us : List Token} {t : Token} {op : Operator} {l r : Expr} :
    announced t.kind = some (op, true) → Derives outer m ts l → Derives inner n us r →
    Derives outer (max m n) (ts ++ t :: us) (.binary op l r)
  /-- An announcing token that stays begins the right operand. -/
  beginning {m n : Nat} {ts us : List Token} {t : Token} {op : Operator} {l r : Expr} :
    announced t.kind = some (op, false) → Derives outer m ts l → Derives inner n (t :: us) r →
    Derives outer (max m n) (ts ++ t :: us) (.binary op l r)

theorem joins_betweenPowers : Joins betweenPowers .power .term where
  eof := rfl
  single := .ofPower
  between := by
    intro m n ts us t op l r announces first second
    refine .product first ?_ second
    cases kind : t.kind <;> rw [kind] at announces <;> cases announces
    · exact .times
    · exact .divide
  beginning := by
    intro m n ts us t op l r announces first second
    have shape : Juxtaposing t.kind ∧ op = .times := by
      cases kind : t.kind <;> rw [kind] at announces <;> cases announces
      · exact ⟨.number, rfl⟩
      · exact ⟨.text, rfl⟩
      · exact ⟨.openBracket, rfl⟩
    obtain ⟨begins, rfl⟩ := shape
    exact .juxtaposition first begins second

theorem joins_betweenTerms : Joins betweenTerms .term .expression where
  eof := rfl
  single := .ofTerm
  between := by
    intro m n ts us t op l r announces first second
    refine .sum first ?_ second
    cases kind : t.kind <;> rw [kind] at announces <;> cases announces
    · exact .plus
    · exact .minus
  beginning := by
    intro m n ts us t op l r announces first second
    cases kind : t.kind <;> rw [kind] at announces <;> cases announces

variable {announced : Announced} {operand : Rule} {inner outer : Symbol}

/-- The operands that follow derived ones keep the whole derived. -/
theorem continued_sound (joins : Joins announced inner outer)
    (operandSound : Sound inner levels operand) {s rest : Stream} {e left : Expr} {m : Nat}
    {ts : List Token} (within : m ≤ levels) (before : Derives outer m ts left)
    (runs : continued announced operand left s = .ok (e, rest)) :
    ∃ n us, n ≤ levels ∧ s.Takes us rest ∧ Derives outer n (ts ++ us) e := by
  cases announces : announced s.peek.kind with
  | none =>
    rw [continued_of_none announces] at runs
    obtain ⟨rfl, rfl⟩ := Prod.mk.inj (Except.ok.inj runs)
    exact ⟨m, [], within, .nil s, by rwa [List.append_nil]⟩
  | some announcement =>
    obtain ⟨op, consumes⟩ := announcement
    have unfinished : s.peek.kind ≠ .eof := by
      intro finished
      rw [finished, joins.eof] at announces
      cases announces
    rw [continued_of_some announces, bind_eq_ok_iff] at runs
    obtain ⟨⟨right, mid⟩, operandRuns, runs⟩ := runs
    obtain ⟨n, us, operandWithin, takes, derivation⟩ := operandSound operandRuns
    -- Whether its token is used up or not, the operation takes the announcing token first.
    have joined : ∃ vs, s.Takes (s.peek :: vs) mid ∧
        Derives outer (max m n) (ts ++ s.peek :: vs) (.binary op left right) := by
      cases consumes with
      | true => exact ⟨us, (Stream.takes_next unfinished).append takes,
          joins.between announces before derivation⟩
      | false =>
        cases us with
        | nil => exact absurd rfl derivation.ne_nil
        | cons t us =>
          change s.Takes (t :: us) mid at takes
          obtain rfl := takes.peek_eq
          exact ⟨us, takes, joins.beginning announces before derivation⟩
    obtain ⟨vs, takesAll, joinedDerivation⟩ := joined
    have shorter : mid.front.length < s.front.length := by
      rw [takesAll.1, List.length_append, List.length_cons]
      omega
    obtain ⟨k, ws, kWithin, takesRest, whole⟩ :=
      continued_sound joins operandSound (Nat.max_le.2 ⟨within, operandWithin⟩)
        joinedDerivation runs
    refine ⟨k, s.peek :: vs ++ ws, kWithin, takesAll.append takesRest, ?_⟩
    rwa [← List.append_assoc]
termination_by s.front.length

theorem chain_sound (joins : Joins announced inner outer)
    (operandSound : Sound inner levels operand) :
    Sound outer levels (chain announced operand) := by
  intro s rest e runs
  rw [run_chain, bind_eq_ok_iff] at runs
  obtain ⟨⟨first, mid⟩, operandRuns, runs⟩ := runs
  obtain ⟨m, ts, within, takes, derivation⟩ := operandSound operandRuns
  obtain ⟨n, us, nWithin, takesRest, whole⟩ :=
    continued_sound joins operandSound within (joins.single derivation) runs
  exact ⟨n, ts ++ us, nWithin, takes.append takesRest, whole⟩

theorem expression_sound_of_power (powerSound : Sound .power levels (power limit levels)) :
    Sound .expression levels (expression limit levels) :=
  chain_sound joins_betweenTerms (chain_sound joins_betweenPowers powerSound)

/-! ## Powers and factors -/

theorem power_sound_succ (factorSound : Sound .factor levels (factor limit levels))
    (powerSound : Sound .power levels (power limit levels)) :
    Sound .power (levels + 1) (power limit (levels + 1)) := by
  intro s rest e runs
  rw [run_power_succ, bind_eq_ok_iff] at runs
  obtain ⟨⟨base, mid⟩, baseRuns, runs⟩ := runs
  obtain ⟨m, ts, within, takes, derivation⟩ := factorSound baseRuns
  dsimp only at runs
  split at runs
  next raised =>
    rw [bind_eq_ok_iff] at runs
    obtain ⟨⟨exponent, last⟩, exponentRuns, returned⟩ := runs
    obtain ⟨n, us, exponentWithin, takesExponent, exponentDerivation⟩ := powerSound exponentRuns
    obtain ⟨rfl, rfl⟩ := Prod.mk.inj (Except.ok.inj returned)
    have unfinished : mid.peek.kind ≠ .eof := by simp [raised]
    refine ⟨max m n + 1, ts ++ mid.peek :: us, by omega, ?_, ?_⟩
    · exact takes.append ((Stream.takes_next unfinished).append takesExponent)
    · exact .raised derivation raised exponentDerivation
  next =>
    obtain ⟨rfl, rfl⟩ := Prod.mk.inj (Except.ok.inj runs)
    exact ⟨m + 1, ts, by omega, takes, .ofFactor derivation⟩

/-- A text is taken in the reading that the reader found for it. -/
theorem factor_text_sound (factorSound : Sound .factor levels (factor limit levels))
    {s rest : Stream} {e : Expr} (text : s.peek.kind = .text)
    (runs : Rule.run (factor limit (levels + 1)) s = .ok (e, rest)) :
    ∃ n ts, n ≤ levels + 1 ∧ s.Takes ts rest ∧ Derives .factor n ts e := by
  have takesText : s.Takes [s.peek] s.next := Stream.takes_next (by simp [text])
  have reading := reading_read s.peek.letters
  rw [run_factor_text text] at runs
  split at runs
  next c word =>
    obtain ⟨rfl, rfl⟩ := Prod.mk.inj (Except.ok.inj runs)
    rw [word] at reading
    exact ⟨1, [s.peek], by omega, takesText, .constant text reading⟩
  next f word =>
    rw [bind_eq_ok_iff] at runs
    obtain ⟨⟨u, last⟩, argumentRuns, returned⟩ := runs
    obtain ⟨n, ts, within, takes, derivation⟩ := factorSound argumentRuns
    obtain ⟨rfl, rfl⟩ := Prod.mk.inj (Except.ok.inj returned)
    rw [word] at reading
    exact ⟨n + 1, s.peek :: ts, by omega, takesText.append takes,
      .function text reading derivation⟩
  next f c word =>
    obtain ⟨rfl, rfl⟩ := Prod.mk.inj (Except.ok.inj runs)
    rw [word] at reading
    exact ⟨1, [s.peek], by omega, takesText, .applied text reading⟩
  next f offset letter word =>
    rw [bind_eq_ok_iff] at runs
    obtain ⟨⟨u, last⟩, argumentRuns, returned⟩ := runs
    obtain ⟨n, ts, within, takes, derivation⟩ := factorSound argumentRuns
    obtain ⟨rfl, rfl⟩ := Prod.mk.inj (Except.ok.inj returned)
    rw [word] at reading
    cases ts with
    | nil => exact absurd rfl derivation.ne_nil
    | cons t ts =>
      obtain rfl := takes.peek_eq
      obtain rfl := derivation.single_letter
      have restored : s.next = last := takes.next.eq_of_nil
      rw [← restored]
      exact ⟨n + 1, [s.peek], by omega, takesText, .glued text reading derivation⟩
  next name word =>
    obtain ⟨rfl, rfl⟩ := Prod.mk.inj (Except.ok.inj runs)
    rw [word] at reading
    exact ⟨1, [s.peek], by omega, takesText, .var text reading⟩

theorem factor_sound_succ (factorSound : Sound .factor levels (factor limit levels))
    (powerSound : Sound .power levels (power limit levels)) :
    Sound .factor (levels + 1) (factor limit (levels + 1)) := by
  intro s rest e runs
  by_cases text : s.peek.kind = .text
  · exact factor_text_sound factorSound text runs
  by_cases minus : s.peek.kind = .minus
  · have takesMinus : s.Takes [s.peek] s.next := Stream.takes_next (by simp [minus])
    rw [run_factor_minus minus, bind_eq_ok_iff] at runs
    obtain ⟨⟨u, last⟩, operandRuns, returned⟩ := runs
    obtain ⟨n, ts, within, takes, derivation⟩ := factorSound operandRuns
    obtain ⟨rfl, rfl⟩ := Prod.mk.inj (Except.ok.inj returned)
    exact ⟨n + 1, s.peek :: ts, by omega, takesMinus.append takes, .negated minus derivation⟩
  by_cases opens : s.peek.kind = .openBracket
  · have takesOpening : s.Takes [s.peek] s.next := Stream.takes_next (by simp [opens])
    rw [run_factor_openBracket opens, bind_eq_ok_iff] at runs
    obtain ⟨⟨inside, mid⟩, insideRuns, runs⟩ := runs
    obtain ⟨n, ts, within, takes, derivation⟩ := expression_sound_of_power powerSound insideRuns
    dsimp only at runs
    split at runs
    next closes =>
      split at runs
      next families =>
        obtain ⟨rfl, rfl⟩ := Prod.mk.inj (Except.ok.inj runs)
        have takesClosing : mid.Takes [mid.peek] mid.next := Stream.takes_next (by simp [closes])
        exact ⟨n + 1, s.peek :: (ts ++ [mid.peek]), by omega,
          takesOpening.append (takes.append takesClosing),
          .bracketed opens derivation closes families⟩
      next => cases runs
    next => cases runs
  · rw [run_factor_other text minus opens] at runs
    split at runs
    next number =>
      obtain ⟨rfl, rfl⟩ := Prod.mk.inj (Except.ok.inj runs)
      exact ⟨1, [s.peek], by omega, Stream.takes_next (by simp [number]), .number number⟩
    next => cases runs

theorem power_factor_sound (limit levels : Nat) :
    Sound .power levels (power limit levels) ∧ Sound .factor levels (factor limit levels) := by
  induction levels with
  | zero =>
    constructor
    · intro s rest e runs
      rw [run_power_zero] at runs
      cases runs
    · intro s rest e runs
      rw [run_factor_zero] at runs
      cases runs
  | succ levels induction =>
    obtain ⟨powerSound, factorSound⟩ := induction
    exact ⟨power_sound_succ factorSound powerSound, factor_sound_succ factorSound powerSound⟩

theorem expression_sound (limit levels : Nat) :
    Sound .expression levels (expression limit levels) :=
  expression_sound_of_power (power_factor_sound limit levels).1

end Formulae
