import Formulae.Proofs.Grammar.Soundness

/-!
# What is derived is accepted

A rule with enough levels reads derived tokens to the end and returns their tree, and with too few
levels it fails because of the nesting and for no other reason (`Derives.readAs`).  So the number
of levels of a derivation is exactly what the rules need.

What follows the tokens must not continue them.  A factor ends where it ends.  A power goes on with
`^`, a term also with what `betweenPowers` announces, and an expression also with what
`betweenTerms` announces.  For a term and an expression the statement stops before the loop over
further operands, because the grammar builds them to the left.
-/

namespace Formulae

/-! ## Enough levels -/

/-- With enough levels the outcome is the expected one, and with fewer the nesting is too deep. -/
structure Within {α : Type} (limit needed levels : Nat)
    (outcome expected : Except ParseError α) : Prop where
  /-- Enough levels. -/
  enough : needed ≤ levels → outcome = expected
  /-- Too few levels. -/
  lacking : levels < needed → ∃ position, outcome = .error (.tooDeep limit position)

namespace Within

variable {α β : Type} {limit m n levels : Nat} {x y : Except ParseError α}

theorem of_eq (equal : x = y) : Within limit 0 levels x y where
  enough _ := equal
  lacking few := absurd few (Nat.not_lt_zero levels)

theorem bind {a : α} (first : Within limit n levels x (.ok a)) (f : α → Except ParseError β) :
    Within limit n levels (x >>= f) (f a) where
  enough levelsEnough := by rw [first.enough levelsEnough, ok_bind]
  lacking few := by
    obtain ⟨position, failed⟩ := first.lacking few
    exact ⟨position, by rw [failed, error_bind]⟩

/-- An outcome that goes on with another one needs the levels of both. -/
theorem trans_bind {a : α} {z : Except ParseError β} {f : α → Except ParseError β}
    (first : Within limit m levels z (x >>= f)) (second : Within limit n levels x (.ok a)) :
    Within limit (max m n) levels z (f a) where
  enough levelsEnough := by
    rw [first.enough (by omega), second.enough (by omega), ok_bind]
  lacking few := by
    by_cases firstEnough : m ≤ levels
    · obtain ⟨position, failed⟩ := second.lacking (by omega)
      exact ⟨position, by rw [first.enough firstEnough, failed, error_bind]⟩
    · exact first.lacking (by omega)

/-- A rule that opens one level needs one level more than what it runs. -/
theorem deeper (outcome : Nat → Except ParseError α)
    (closed : ∃ position, outcome 0 = .error (.tooDeep limit position))
    (opened : ∀ levels, Within limit n levels (outcome (levels + 1)) x) (levels : Nat) :
    Within limit (n + 1) levels (outcome levels) x := by
  cases levels with
  | zero => exact ⟨fun enough => absurd enough (Nat.not_succ_le_zero n), fun _ => closed⟩
  | succ levels =>
    constructor
    · intro enough
      exact (opened levels).enough (by omega)
    · intro few
      exact (opened levels).lacking (by omega)

theorem power {s : Stream} {x : Except ParseError (Expr × Stream)}
    (opened : ∀ levels, Within limit n levels (Rule.run (power limit (levels + 1)) s) x) :
    Within limit (n + 1) levels (Rule.run (Formulae.power limit levels) s) x :=
  deeper (fun levels => Rule.run (Formulae.power limit levels) s) ⟨_, run_power_zero⟩ opened levels

theorem factor {s : Stream} {x : Except ParseError (Expr × Stream)}
    (opened : ∀ levels, Within limit n levels (Rule.run (factor limit (levels + 1)) s) x) :
    Within limit (n + 1) levels (Rule.run (Formulae.factor limit levels) s) x :=
  deeper (fun levels => Rule.run (Formulae.factor limit levels) s) ⟨_, run_factor_zero⟩ opened
    levels

end Within

/-! ## Announcing tokens -/

theorem Additive.announced {k : Kind} {op : Operator} (additive : Additive k op) :
    betweenTerms k = some (op, true) ∧ betweenPowers k = none ∧ k ≠ .power := by
  cases additive <;> simp [betweenTerms, betweenPowers]

theorem Multiplicative.announced {k : Kind} {op : Operator} (multiplicative : Multiplicative k op) :
    betweenPowers k = some (op, true) ∧ k ≠ .power := by
  cases multiplicative <;> simp [betweenPowers]

theorem Juxtaposing.announced {k : Kind} (juxtaposing : Juxtaposing k) :
    betweenPowers k = some (.times, false) ∧ k ≠ .power := by
  cases juxtaposing <;> simp [betweenPowers]

/-! ## Derived tokens -/

/-- The rule of a symbol reads the tokens, whatever follows that does not continue them. -/
def ReadAs (symbol : Symbol) (n : Nat) (ts : List Token) (e : Expr) : Prop :=
  ∀ (limit levels : Nat) {s rest : Stream}, s.Takes ts rest →
    match symbol with
    | .factor => Within limit n levels (Rule.run (factor limit levels) s) (.ok (e, rest))
    | .power =>
      rest.peek.kind ≠ .power →
        Within limit n levels (Rule.run (power limit levels) s) (.ok (e, rest))
    | .term =>
      rest.peek.kind ≠ .power →
        Within limit n levels (Rule.run (chain betweenPowers (power limit levels)) s)
          (continued betweenPowers (power limit levels) e rest)
    | .expression =>
      rest.peek.kind ≠ .power → betweenPowers rest.peek.kind = none →
        Within limit n levels (Rule.run (expression limit levels) s)
          (continued betweenTerms (chain betweenPowers (power limit levels)) e rest)

namespace ReadAs

variable {m n : Nat} {ts us : List Token} {t : Token} {e l r : Expr} {op : Operator}

theorem ofTerm (operand : ReadAs .term n ts e) : ReadAs .expression n ts e := by
  intro limit levels s rest takes notPower silent
  have reads := operand limit levels takes notPower
  rw [continued_of_none silent] at reads
  rw [expression, expressionOf, run_chain]
  exact reads.bind _

theorem sum (first : ReadAs .expression m ts l) (additive : Additive t.kind op)
    (second : ReadAs .term n us r) :
    ReadAs .expression (max m n) (ts ++ t :: us) (.binary op l r) := by
  intro limit levels s rest takes notPower silent
  obtain ⟨mid, takesFirst, takesSecond⟩ := takes.split
  obtain ⟨announces, silentOperator, notPowerOperator⟩ := additive.announced
  obtain rfl := takesSecond.peek_eq
  have readsFirst := first limit levels takesFirst notPowerOperator silentOperator
  rw [continued_of_some announces] at readsFirst
  have readsSecond := second limit levels takesSecond.next notPower
  rw [continued_of_none silent] at readsSecond
  exact readsFirst.trans_bind readsSecond

theorem ofPower (operand : ReadAs .power n ts e) : ReadAs .term n ts e := by
  intro limit levels s rest takes notPower
  rw [run_chain]
  exact (operand limit levels takes notPower).bind _

theorem product (first : ReadAs .term m ts l) (multiplicative : Multiplicative t.kind op)
    (second : ReadAs .power n us r) :
    ReadAs .term (max m n) (ts ++ t :: us) (.binary op l r) := by
  intro limit levels s rest takes notPower
  obtain ⟨mid, takesFirst, takesSecond⟩ := takes.split
  obtain ⟨announces, notPowerOperator⟩ := multiplicative.announced
  obtain rfl := takesSecond.peek_eq
  have readsFirst := first limit levels takesFirst notPowerOperator
  rw [continued_of_some announces] at readsFirst
  exact readsFirst.trans_bind (second limit levels takesSecond.next notPower)

theorem juxtaposition (first : ReadAs .term m ts l) (juxtaposing : Juxtaposing t.kind)
    (second : ReadAs .power n (t :: us) r) :
    ReadAs .term (max m n) (ts ++ t :: us) (.times l r) := by
  intro limit levels s rest takes notPower
  obtain ⟨mid, takesFirst, takesSecond⟩ := takes.split
  obtain ⟨announces, notPowerOperator⟩ := juxtaposing.announced
  obtain rfl := takesSecond.peek_eq
  have readsFirst := first limit levels takesFirst notPowerOperator
  rw [continued_of_some announces] at readsFirst
  exact readsFirst.trans_bind (second limit levels takesSecond notPower)

theorem ofFactor (base : ReadAs .factor n ts e) : ReadAs .power (n + 1) ts e := by
  intro limit levels s rest takes notPower
  refine Within.power fun levels => ?_
  have reads := (base limit levels takes).bind fun base =>
    if base.2.peek.kind = .power then do
      let exponent ← Rule.run (power limit levels) base.2.next
      .ok (.power base.1 exponent.1, exponent.2)
    else .ok base
  rw [if_neg notPower] at reads
  rwa [run_power_succ]

theorem raised (base : ReadAs .factor m ts l) (raising : t.kind = .power)
    (exponent : ReadAs .power n us r) :
    ReadAs .power (max m n + 1) (ts ++ t :: us) (.power l r) := by
  intro limit levels s rest takes notPower
  obtain ⟨mid, takesBase, takesExponent⟩ := takes.split
  obtain rfl := takesExponent.peek_eq
  refine Within.power fun levels => ?_
  have reads := (base limit levels takesBase).bind fun base =>
    if base.2.peek.kind = .power then do
      let exponent ← Rule.run (power limit levels) base.2.next
      .ok (.power base.1 exponent.1, exponent.2)
    else .ok base
  rw [if_pos raising, ← run_power_succ] at reads
  exact reads.trans_bind (exponent limit levels takesExponent.next notPower)

theorem negated (minus : t.kind = .minus) (operand : ReadAs .factor n ts e) :
    ReadAs .factor (n + 1) (t :: ts) e.negate := by
  intro limit levels s rest takes
  obtain rfl := takes.peek_eq
  refine Within.factor fun levels => ?_
  rw [run_factor_minus minus]
  exact (operand limit levels takes.next).bind _

theorem bracketed {opening closing : Token} (opens : opening.kind = .openBracket)
    (inside : ReadAs .expression n ts e) (closes : closing.kind = .closeBracket)
    (families : opening.family? = closing.family?) :
    ReadAs .factor (n + 1) (opening :: (ts ++ [closing])) e := by
  intro limit levels s rest takes
  obtain rfl := takes.peek_eq
  obtain ⟨mid, takesInside, takesClosing⟩ := takes.next.split
  obtain rfl := takesClosing.peek_eq
  refine Within.factor fun levels => ?_
  have reads := inside limit levels takesInside (by simp [closes]) (by rw [closes]; rfl)
  rw [continued_of_none (by rw [closes]; rfl)] at reads
  have finished : mid.next = rest := takesClosing.next.eq_of_nil
  have returns := reads.bind fun inside =>
    if inside.2.peek.kind = .closeBracket then
      if s.peek.family? = inside.2.peek.family? then .ok (inside.1, inside.2.next)
      else .error (.mismatch (s.peek.glyph?.getD '?') (inside.2.peek.glyph?.getD '?')
        inside.2.peek.position)
    else .error (.unexpected inside.2.peek.kind .closeBracket inside.2.peek.position)
  rw [if_pos closes, if_pos families, finished] at returns
  rwa [run_factor_openBracket opens]

theorem number (number : t.kind = .number) :
    ReadAs .factor 1 [t] (.literal (t.value?.getD 0)) := by
  intro limit levels s rest takes
  obtain rfl := takes.peek_eq
  refine Within.factor fun levels => .of_eq ?_
  have finished : s.next = rest := takes.next.eq_of_nil
  rw [run_factor_other (by simp [number]) (by simp [number]) (by simp [number]), if_pos number,
    finished]

/-- A text with a reading of its own, which reads no further token. -/
theorem leaf {word : Word} (reading : Reading t.letters word)
    (closed : ∀ {limit levels : Nat} {s : Stream}, s.peek = t → Word.read t.letters = word →
      Rule.run (factor limit (levels + 1)) s = .ok (e, s.next)) :
    ReadAs .factor 1 [t] e := by
  intro limit levels s rest takes
  refine Within.factor fun levels => .of_eq ?_
  have finished : s.next = rest := takes.next.eq_of_nil
  rw [closed takes.peek_eq (read_eq_iff.2 reading), finished]

theorem constant {c : Constant} (text : t.kind = .text)
    (reading : Reading t.letters (.constant c)) :
    ReadAs .factor 1 [t] (.constant c) := by
  refine leaf reading ?_
  rintro limit levels s rfl word
  rw [run_factor_text text, word]

theorem applied {f : Function} {c : Constant} (text : t.kind = .text)
    (reading : Reading t.letters (.applied f c)) :
    ReadAs .factor 1 [t] (.apply f (.constant c)) := by
  refine leaf reading ?_
  rintro limit levels s rfl word
  rw [run_factor_text text, word]

theorem var {name : String} (text : t.kind = .text) (reading : Reading t.letters (.var name)) :
    ReadAs .factor 1 [t] (.var name) := by
  refine leaf reading ?_
  rintro limit levels s rfl word
  rw [run_factor_text text, word]

theorem function {f : Function} (text : t.kind = .text) (reading : Reading t.letters (.function f))
    (argument : ReadAs .factor n ts e) : ReadAs .factor (n + 1) (t :: ts) (.apply f e) := by
  intro limit levels s rest takes
  obtain rfl := takes.peek_eq
  refine Within.factor fun levels => ?_
  rw [run_factor_text text, read_eq_iff.2 reading]
  exact (argument limit levels takes.next).bind _

theorem glued {f : Function} {offset : Nat} {letter : Char} (text : t.kind = .text)
    (reading : Reading t.letters (.glued f offset letter))
    (argument :
      ReadAs .factor n [Token.text (t.position + offset) (String.singleton letter)] e) :
    ReadAs .factor (n + 1) [t] (.apply f e) := by
  intro limit levels s rest takes
  obtain rfl := takes.peek_eq
  have finished : s.next = rest := takes.next.eq_of_nil
  refine Within.factor fun levels => ?_
  rw [run_factor_text text, read_eq_iff.2 reading, ← finished]
  exact (argument limit levels (Stream.takes_prepend s.next _)).bind _

end ReadAs

/-- Derived tokens are read with the levels of their derivation. -/
theorem Derives.readAs {symbol : Symbol} {n : Nat} {ts : List Token} {e : Expr}
    (derivation : Derives symbol n ts e) : ReadAs symbol n ts e := by
  induction derivation with
  | ofTerm _ operand => exact operand.ofTerm
  | sum _ additive _ first second => exact first.sum additive second
  | ofPower _ operand => exact operand.ofPower
  | product _ multiplicative _ first second => exact first.product multiplicative second
  | juxtaposition _ juxtaposing _ first second => exact first.juxtaposition juxtaposing second
  | ofFactor _ base => exact base.ofFactor
  | raised _ raising _ base exponent => exact base.raised raising exponent
  | negated minus _ operand => exact operand.negated minus
  | bracketed opens _ closes families inside => exact inside.bracketed opens closes families
  | number number => exact .number number
  | constant text reading => exact .constant text reading
  | function text reading _ argument => exact .function text reading argument
  | applied text reading => exact .applied text reading
  | glued text reading _ argument => exact .glued text reading argument
  | var text reading => exact .var text reading

end Formulae
