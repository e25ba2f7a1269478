import Formulae.Proofs.Grammar.Failure
import Formulae.Proofs.Grammar.Recognition
import Formulae.Proofs.Grammar.Unlimited
import Mathlib

/-!
# The limit of nesting

The rules of the grammar, which count the levels that are left, against the rules without a limit.

*Simulation.*  `Traced.within` cuts a result without a limit off where its notes overflow.  It goes
through the steps of a rule (`within_bind`), and at a power or a factor it checks for room and goes
one level down (`within_nested`).  So, by induction on the levels that are left, each rule is its
unlimited counterpart cut off (`within_power_and_factor`), and parsing within a limit is parsing
without one cut off (`Stream.within_parseUnlimited`).  What is cut off nowhere is read as the grammar
says, however deep it nests (`Stream.parseUnlimited_iff`).

*What costs levels.*  A sign costs one level (`Stream.length_signs_le`), and a bracket two
(`Derives.opensWithin`), so that a formula has no more than 255 brackets open at once.  Operands of
sums and products follow one another and cost nothing (`DerivableWithin.flatten`).
-/

namespace Formulae

variable {α β : Type} {limit depth levels : Nat} {s : Stream}

/-! ## Giving up -/

namespace Traced

/-- The result of a parser that gives up where the notes overflow. -/
def within (limit depth : Nat) (x : Traced α) : Except ParseError α :=
  match overflow? limit depth x.events with
  | some position => .error (.tooDeep limit position)
  | none => x.outcome

theorem within_ofExcept (outcome : Except ParseError α) :
    (ofExcept outcome).within limit depth = outcome := rfl

/-- Where the first of two runs gives up, the second does not begin. -/
theorem within_bind (x : Traced α) (f : α → Traced β) :
    (x >>= f).within limit depth = x.within limit depth >>= fun a => (f a).within limit depth := by
  show (x.bind f).within limit depth = _
  obtain ⟨events, outcome, balanced⟩ := x
  cases outcome with
  | error cause =>
    unfold within bind
    dsimp only
    cases overflow? limit depth events <;> rfl
  | ok a =>
    unfold within bind
    dsimp only
    rw [balanced.overflow?_append]
    cases overflow? limit depth events <;> rfl

/-- A power or a factor is begun if fewer than the limit are open, and is one more. -/
theorem within_nested (x : Traced α) :
    (nested s x).within limit depth =
      if depth < limit then x.within limit (depth + 1)
      else .error (.tooDeep limit s.peek.position) := by
  unfold within nested
  dsimp only
  rw [overflow?]
  by_cases room : depth < limit
  · rw [if_pos room, if_pos room, x.balanced.overflow?_append]
    cases overflow? limit (depth + 1) x.events <;> rfl
  · rw [if_neg room, if_neg room]

end Traced

/-! ## Rules -/

section

variable {bound : Nat} {announced : Announced} {operand : Unlimited.RuleBelow bound} {rule : Rule}

theorem within_extend (agrees : ∀ s fits, (operand s fits).within limit depth = rule s)
    (left : Expr) (s : Stream) (fits : s.weight < bound) :
    (Unlimited.extend announced operand left s fits).within limit depth =
      extend announced rule left s := by
  rw [Unlimited.extend, extend]
  cases announces : announced s.peek.kind with
  | none => rfl
  | some announcement =>
    obtain ⟨op, consumes⟩ := announcement
    dsimp only
    rw [Traced.within_bind, agrees]
    refine congrArg _ (funext fun right => ?_)
    have shorter : right.rest.weight < s.weight :=
      Nat.lt_of_lt_of_le right.shorter (s.weight_start_le consumes)
    rw [Traced.within_bind, within_extend agrees]
    rfl
termination_by s.weight

theorem within_chain (agrees : ∀ s fits, (operand s fits).within limit depth = rule s)
    (s : Stream) (fits : s.weight < bound) :
    (Unlimited.chain announced operand s fits).within limit depth = chain announced rule s := by
  unfold Unlimited.chain chain
  rw [Traced.within_bind, agrees]
  refine congrArg _ (funext fun first => ?_)
  rw [Traced.within_bind, within_extend agrees]
  rfl

theorem within_expressionOf (agrees : ∀ s fits, (operand s fits).within limit depth = rule s)
    (s : Stream) (fits : s.weight < bound) :
    (Unlimited.expressionOf operand s fits).within limit depth = expressionOf rule s :=
  within_chain (within_chain agrees) s fits

end

/-! ## Powers and factors -/

/-- What is read is determined by the tree and the rest. -/
theorem eq_of_run_eq {x y : Except ParseError (Parsed s)}
    (runs : (fun parsed => (parsed.tree, parsed.rest)) <$> x =
      (fun parsed => (parsed.tree, parsed.rest)) <$> y) : x = y := by
  cases x with
  | error cause =>
    cases y with
    | error cause' => exact congrArg Except.error (Except.error.inj runs)
    | ok parsed' => cases runs
  | ok parsed =>
    cases y with
    | error cause' => cases runs
    | ok parsed' =>
      obtain ⟨tree, rest, _⟩ := parsed
      obtain ⟨tree', rest', _⟩ := parsed'
      obtain ⟨rfl, rfl⟩ := Prod.mk.inj (Except.ok.inj runs)
      rfl

section

variable
  (factors : ∀ s, (Unlimited.factor s).within limit (depth + 1) = factor limit levels s)
  (powers : ∀ s, (Unlimited.power s).within limit (depth + 1) = power limit levels s)
  (room : depth < limit) (s : Stream)

include factors powers room

theorem within_power_of_levels :
    (Unlimited.power s).within limit depth = power limit (levels + 1) s := by
  rw [Unlimited.power, power, Traced.within_nested, if_pos room, Traced.within_bind, factors]
  refine congrArg _ (funext fun base => ?_)
  by_cases raised : base.rest.peek.kind = .power
  · rw [if_pos raised, if_pos raised, Traced.within_bind, powers]
    rfl
  · rw [if_neg raised, if_neg raised]
    rfl

theorem within_factor_of_levels :
    (Unlimited.factor s).within limit depth = factor limit (levels + 1) s := by
  refine eq_of_run_eq ?_
  change _ = Rule.run (factor limit (levels + 1)) s
  rw [Unlimited.factor, Traced.within_nested, if_pos room]
  split
  next text =>
    split
    next c word =>
      rw [run_factor_text text, show Word.read s.peek.letters = .constant c from word]
      rfl
    next f word =>
      rw [run_factor_text text, show Word.read s.peek.letters = .function f from word]
      dsimp only
      rw [Traced.within_bind, factors, map_bind, Rule.run, bind_map_left]
      rfl
    next f c word =>
      rw [run_factor_text text, show Word.read s.peek.letters = .applied f c from word]
      rfl
    next f offset letter word =>
      rw [run_factor_text text, show Word.read s.peek.letters = .glued f offset letter from word]
      dsimp only
      rw [Traced.within_bind, factors, map_bind, Rule.run, bind_map_left]
      rfl
    next name word =>
      rw [run_factor_text text, show Word.read s.peek.letters = .var name from word]
      rfl
  next minus =>
    rw [run_factor_minus minus, Traced.within_bind, factors, map_bind, Rule.run, bind_map_left]
    rfl
  next opens =>
    rw [run_factor_openBracket opens, Traced.within_bind, within_expressionOf fun t _ => powers t,
      map_bind, Rule.run, bind_map_left]
    refine congrArg _ (funext fun inside => ?_)
    rw [Traced.within_bind, Traced.within_ofExcept, map_bind]
    refine expect_bind fun closes => ?_
    dsimp only
    split
    next => rfl
    next => rfl
  next notText notMinus notOpening =>
    rw [run_factor_other notText notMinus notOpening, Traced.within_bind, Traced.within_ofExcept,
      map_bind]
    exact expect_bind fun found => rfl

end

/-- Below the limit, the rules without a limit that are given up where the nesting overflows are
the rules with as many levels as are left. -/
theorem within_power_and_factor (levels : Nat) : ∀ depth, depth + levels = limit →
    (∀ s, (Unlimited.power s).within limit depth = power limit levels s) ∧
      ∀ s, (Unlimited.factor s).within limit depth = factor limit levels s := by
  induction levels with
  | zero =>
    intro depth full
    have noRoom : ¬ depth < limit := by omega
    constructor
    · intro s
      rw [Unlimited.power, Traced.within_nested, if_neg noRoom]
      rfl
    · intro s
      rw [Unlimited.factor, Traced.within_nested, if_neg noRoom]
      rfl
  | succ levels induction =>
    intro depth left
    obtain ⟨powers, factors⟩ := induction (depth + 1) (by omega)
    have room : depth < limit := by omega
    exact ⟨within_power_of_levels factors powers room, within_factor_of_levels factors powers room⟩

/-- A parser with a limit is the parser without one, given up where the nesting overflows. -/
theorem Stream.within_parseUnlimited (s : Stream) :
    s.parseUnlimited.within limit 0 = s.parseWithin limit := by
  have powers := (within_power_and_factor limit 0 (Nat.zero_add limit)).1
  unfold parseUnlimited parseWithin Unlimited.expression expression
  rw [Traced.within_bind, within_expressionOf fun t _ => powers t]
  refine congrArg _ (funext fun whole => ?_)
  rw [Traced.within_bind, Traced.within_ofExcept]
  rfl

/-- A limit changes nothing where the nesting stays within it.  Where it does not, the parser
points at the first power or factor that is begun with as many as the limit open. -/
theorem Stream.parseWithin_cases (limit : Nat) (s : Stream) :
    (NestsWithin limit 0 s.parseUnlimited.events →
      s.parseWithin limit = s.parseUnlimited.outcome) ∧
    (¬ NestsWithin limit 0 s.parseUnlimited.events → ∃ before position after,
      s.parseUnlimited.events = before ++ .opens position :: after ∧
        NestsWithin limit 0 before ∧ openAfter 0 before = limit ∧
        s.parseWithin limit = .error (.tooDeep limit position)) := by
  rw [← within_parseUnlimited, Traced.within]
  constructor
  · intro nests
    rw [(overflow?_eq_none_iff (Nat.zero_le limit)).2 nests]
  · intro nestsMore
    have overflows : overflow? limit 0 s.parseUnlimited.events ≠ none := fun none =>
      nestsMore ((overflow?_eq_none_iff (Nat.zero_le limit)).1 none)
    obtain ⟨position, found⟩ := Option.ne_none_iff_exists'.1 overflows
    obtain ⟨before, after, split, nests, full⟩ := overflow?_eq_some found (Nat.zero_le limit)
    exact ⟨before, position, after, split, nests, full, by rw [found]⟩

/-! ## Enough levels -/

theorem openAfter_le_add_length (depth : Nat) (es : List Event) :
    openAfter depth es ≤ depth + es.length := by
  induction es generalizing depth with
  | nil => exact Nat.le_refl _
  | cons event es induction =>
    have rest := induction (event.step depth)
    have step : event.step depth ≤ depth + 1 := by
      cases event with
      | opens position => exact Nat.le_refl _
      | closes => exact Nat.le_trans (Nat.sub_le depth 1) (Nat.le_succ depth)
    change openAfter (event.step depth) es ≤ depth + (es.length + 1)
    omega

/-- A limit that is great enough for a stream makes no difference. -/
theorem Stream.parseWithin_eq_outcome (s : Stream)
    (enough : s.parseUnlimited.events.length ≤ limit) :
    s.parseWithin limit = s.parseUnlimited.outcome := by
  refine (s.parseWithin_cases limit).1 fun es leading => ?_
  have few := openAfter_le_add_length 0 es
  have shorter := leading.length_le
  change openAfter 0 es ≤ limit
  omega

/-- Without a limit exactly the derived streams are accepted, however deep they nest. -/
theorem Stream.parseUnlimited_iff {e : Expr} (whole : ∀ t ∈ s.front, t.kind ≠ .eof) :
    s.parseUnlimited.outcome = .ok e ↔ ∃ n, Derives .expression n s.front e := by
  constructor
  · intro accepted
    rw [← s.parseWithin_eq_outcome (Nat.le_refl _), parseWithin_iff whole] at accepted
    obtain ⟨n, -, derivation⟩ := accepted
    exact ⟨n, derivation⟩
  · rintro ⟨n, derivation⟩
    rw [← s.parseWithin_eq_outcome (Nat.le_max_left _ n), parseWithin_iff whole]
    exact ⟨n, Nat.le_max_right _ n, derivation⟩

/-! ## Signs -/

namespace Traced

theorem nestsWithin_of_bind {x : Traced α} {f : α → Traced β}
    (nests : NestsWithin limit depth (x >>= f).events) : NestsWithin limit depth x.events := by
  change NestsWithin limit depth (x.bind f).events at nests
  unfold bind at nests
  split at nests
  · exact (Throughout.append.1 nests).1
  · exact nests

theorem nestsWithin_of_nested {x : Traced α}
    (nests : NestsWithin limit depth (nested s x).events) :
    NestsWithin limit (depth + 1) x.events :=
  (Throughout.append.1 (Throughout.cons.1 nests).2).1

end Traced

/-- Each sign in front of a factor is one more factor that is open. -/
theorem Unlimited.length_signs_le {signs : List Token} {rest : Stream}
    (minus : ∀ t ∈ signs, t.kind = .minus) (takes : s.Takes signs rest)
    (nests : NestsWithin limit depth (Unlimited.factor s).events) :
    depth + signs.length + 1 ≤ limit := by
  rw [Unlimited.factor] at nests
  have inside := Traced.nestsWithin_of_nested nests
  induction signs generalizing s depth with
  | nil => exact inside.at_start
  | cons t signs induction =>
    obtain ⟨first, others⟩ := List.forall_mem_cons.1 minus
    obtain rfl := takes.peek_eq
    split at inside
    next text => cases first.symm.trans text
    next =>
      have operand := Traced.nestsWithin_of_bind inside
      rw [Unlimited.factor] at operand
      have := induction others takes.next operand (Traced.nestsWithin_of_nested operand)
      rw [List.length_cons]
      omega
    next opens => cases first.symm.trans opens
    next notMinus _ => exact absurd first notMinus

/-- A formula behind signs opens a power, a factor for each sign and a factor behind them. -/
theorem Stream.length_signs_le {signs : List Token} {rest : Stream}
    (minus : ∀ t ∈ signs, t.kind = .minus) (takes : s.Takes signs rest)
    (nests : NestsWithin limit 0 s.parseUnlimited.events) : signs.length + 2 ≤ limit := by
  have power : NestsWithin limit 0 (Unlimited.power s).events :=
    Traced.nestsWithin_of_bind (Traced.nestsWithin_of_bind
      (Traced.nestsWithin_of_bind nests))
  rw [Unlimited.power] at power
  have factor := Traced.nestsWithin_of_bind (Traced.nestsWithin_of_nested power)
  have := Unlimited.length_signs_le minus takes factor
  omega

/-- So many signs with nothing behind them are too deep. -/
theorem Stream.not_nestsWithin_signs {n position : Nat} {final : Token} (eof : final.kind = .eof)
    (many : limit < n + 2) :
    let signs : Stream := ⟨List.replicate n (Token.bare .minus position), final, eof⟩
    ¬ NestsWithin limit 0 signs.parseUnlimited.events := by
  intro signs nests
  have minus : ∀ t ∈ List.replicate n (Token.bare .minus position), t.kind = .minus := by
    intro t membership
    rw [List.eq_of_mem_replicate membership]
    rfl
  have takes : signs.Takes (List.replicate n (Token.bare .minus position)) ⟨[], final, eof⟩ :=
    ⟨(List.append_nil _).symm, rfl⟩
  have few := length_signs_le minus takes nests
  rw [List.length_replicate] at few
  omega

/-! ## Brackets -/

/-- Behind every part of the tokens, two levels for each bracket that is open there, and some more,
are at most a number of levels.  The brackets of the stack are open before the tokens and do not
count. -/
def OpensWithin (more levels : Nat) (stack ts : List Token) : Prop :=
  Throughout (fun brackets => 2 * brackets.length + more ≤ levels + 2 * stack.length)
    Token.nest stack ts

namespace OpensWithin

variable {more m n : Nat} {stack ts us : List Token} {t : Token}

theorem enough (opens : OpensWithin more m stack ts) : more ≤ m := by
  have start := opens.at_start
  omega

theorem mono (opens : OpensWithin more m stack ts) (fewer : m ≤ n) :
    OpensWithin more n stack ts :=
  opens.imp fun _ within => Nat.le_trans within (Nat.add_le_add_right fewer _)

theorem deeper (opens : OpensWithin more n stack ts) : OpensWithin (more + 1) (n + 1) stack ts := by
  refine opens.imp fun brackets within => ?_
  omega

/-- A token that is no bracket, in front of others. -/
theorem cons (other : ¬ t.kind.IsBracket) (opens : OpensWithin more n stack ts) :
    OpensWithin more n stack (t :: ts) := by
  rw [OpensWithin, Throughout.cons, Token.nest_other other]
  exact ⟨opens.at_start, opens⟩

theorem append (closed : opened stack ts = stack) (left : OpensWithin more m stack ts)
    (right : OpensWithin more n stack us) : OpensWithin more (max m n) stack (ts ++ us) := by
  have behind : ts.foldl Token.nest stack = stack := closed
  rw [OpensWithin, Throughout.append, behind]
  exact ⟨left.mono (Nat.le_max_left m n), right.mono (Nat.le_max_right m n)⟩

/-- A single token that is no bracket. -/
theorem single (other : ¬ t.kind.IsBracket) : OpensWithin more more stack [t] := by
  refine cons other (Throughout.nil.2 ?_)
  omega

/-- Brackets around tokens. -/
theorem bracketed {opening closing : Token} (opens : opening.kind = .openBracket)
    (closes : closing.kind = .closeBracket)
    (closed : opened (opening :: stack) ts = opening :: stack)
    (inside : OpensWithin (more + 1) n (opening :: stack) ts) :
    OpensWithin more (n + 1) stack (opening :: (ts ++ [closing])) := by
  have behind : ts.foldl Token.nest (opening :: stack) = opening :: stack := closed
  have least := inside.enough
  rw [OpensWithin, Throughout.cons, Token.nest_openBracket opens, Throughout.append, behind,
    Throughout.cons, Throughout.nil, Token.nest_closeBracket closes, List.tail_cons,
    List.length_cons]
  refine ⟨by omega, inside.imp fun brackets within => ?_, by omega, by omega⟩
  rw [List.length_cons] at within
  omega

end OpensWithin

/-- The powers and factors of a symbol that are open at each of its tokens. -/
def Symbol.least : Symbol → Nat
  | .factor => 1
  | .power | .term | .expression => 2

/-- Each bracket that is open costs two levels, a power and a factor. -/
theorem Derives.opensWithin {symbol : Symbol} {n : Nat} {ts : List Token} {e : Expr}
    (derivation : Derives symbol n ts e) :
    ∀ stack : List Token, OpensWithin symbol.least n stack ts := by
  induction derivation with
  | ofTerm _ induction | ofPower _ induction => exact induction
  | ofFactor _ induction => exact fun stack => (induction stack).deeper
  | sum first additive _ left right =>
    intro stack
    exact .append (first.opened_eq stack) (left stack)
      (.cons additive.not_isBracket (right stack))
  | product first multiplicative _ left right =>
    intro stack
    exact .append (first.opened_eq stack) (left stack)
      (.cons multiplicative.not_isBracket (right stack))
  | juxtaposition first _ _ left right =>
    exact fun stack => .append (first.opened_eq stack) (left stack) (right stack)
  | @raised m n _ _ t _ _ first raising _ base exponent =>
    intro stack
    have other : ¬ t.kind.IsBracket := by simp [Kind.IsBracket, raising]
    exact (OpensWithin.append (first.opened_eq stack) (base stack).deeper
      (.cons other (exponent stack))).mono (by omega)
  | negated kind _ operand | function kind _ _ operand =>
    intro stack
    exact .cons (by simp [Kind.IsBracket, kind]) ((operand stack).mono (Nat.le_succ _))
  | bracketed opens inside closes _ induction =>
    exact fun stack => .bracketed opens closes (inside.opened_eq _) (induction _)
  | number kind | constant kind | applied kind | var kind =>
    exact fun stack => .single (by simp [Kind.IsBracket, kind])
  | glued kind =>
    intro stack
    exact (OpensWithin.single (by simp [Kind.IsBracket, kind])).mono (Nat.le_add_left _ _)

/-- The texts of formulas have at most 255 brackets open at once. -/
theorem length_opened_le_of_parse {source : String} {tokens us : List Token} {e : Expr}
    (tokenized : tokenize source = .ok tokens) (accepted : parse source = .ok e)
    (leading : us <+: beforeEnd tokens) : (opened [] us).length ≤ 255 := by
  obtain ⟨n, within, derivation⟩ := (parse_eq_ok_iff tokenized).1 accepted
  have levels : 2 * (opened [] us).length + 2 ≤ n + 2 * 0 := derivation.opensWithin [] us leading
  omega

/-! ## Sums and products -/

/-- Tokens that continue a sum or a product with a power: an operator and the power, or the power
alone if it begins with a token that announces a product. -/
inductive Continues (levels : Nat) : List Token → Prop where
  | sum {t : Token} {us : List Token} {op : Operator} :
      Additive t.kind op → DerivableWithin .power levels us → Continues levels (t :: us)
  | product {t : Token} {us : List Token} {op : Operator} :
      Multiplicative t.kind op → DerivableWithin .power levels us → Continues levels (t :: us)
  | juxtaposition {t : Token} {us : List Token} :
      Juxtaposing t.kind → DerivableWithin .power levels (t :: us) → Continues levels (t :: us)

/-- What continues a term continues an expression, whose last term it continues. -/
theorem DerivableWithin.expression_append {levels : Nat} {ts us : List Token}
    (terms : ∀ {ts}, DerivableWithin .term levels ts → DerivableWithin .term levels (ts ++ us))
    (derivable : DerivableWithin .expression levels ts) :
    DerivableWithin .expression levels (ts ++ us) := by
  obtain ⟨_, _, within, derivation⟩ := derivable
  cases derivation with
  | ofTerm term =>
    obtain ⟨n, e, within, whole⟩ := terms ⟨_, _, within, term⟩
    exact ⟨n, e, within, .ofTerm whole⟩
  | @sum m n ts us' t op l r first additive last =>
    obtain ⟨firstWithin, lastWithin⟩ := Nat.max_le.1 within
    obtain ⟨k, e, within, whole⟩ := terms ⟨_, _, lastWithin, last⟩
    refine ⟨max m k, .binary op l e, Nat.max_le.2 ⟨firstWithin, within⟩, ?_⟩
    rw [List.append_assoc]
    exact .sum first additive whole

/-- One more operand needs no more levels. -/
theorem Continues.derivableWithin {levels : Nat} {ts us : List Token}
    (continues : Continues levels us) (derivable : DerivableWithin .expression levels ts) :
    DerivableWithin .expression levels (ts ++ us) := by
  cases continues with
  | sum additive operand =>
    obtain ⟨m, left, leftWithin, before⟩ := derivable
    obtain ⟨n, right, rightWithin, after⟩ := operand
    exact ⟨_, _, Nat.max_le.2 ⟨leftWithin, rightWithin⟩, .sum before additive (.ofPower after)⟩
  | product multiplicative operand =>
    obtain ⟨n, right, rightWithin, after⟩ := operand
    refine derivable.expression_append ?_
    rintro ts ⟨m, left, leftWithin, before⟩
    exact ⟨_, _, Nat.max_le.2 ⟨leftWithin, rightWithin⟩, .product before multiplicative after⟩
  | juxtaposition juxtaposing operand =>
    obtain ⟨n, right, rightWithin, after⟩ := operand
    refine derivable.expression_append ?_
    rintro ts ⟨m, left, leftWithin, before⟩
    exact ⟨_, _, Nat.max_le.2 ⟨leftWithin, rightWithin⟩, .juxtaposition before juxtaposing after⟩

/-- Any number of operands need no more levels than one of them. -/
theorem DerivableWithin.flatten {levels : Nat} {ts : List Token} {parts : List (List Token)}
    (derivable : DerivableWithin .expression levels ts)
    (follow : ∀ part ∈ parts, Continues levels part) :
    DerivableWithin .expression levels (ts ++ parts.flatten) := by
  induction parts generalizing ts with
  | nil => simpa using derivable
  | cons part parts induction =>
    obtain ⟨first, rest⟩ := List.forall_mem_cons.1 follow
    rw [List.flatten_cons, ← List.append_assoc]
    exact induction (first.derivableWithin derivable) rest

/-! ## The limit of 512 -/

/-- The limit of nesting turns some results into an error and changes no other.

* A stream on which no more than 512 powers and factors are open at once has the result that it has
  without a limit, and any other stream is too deep where the first power or factor is begun with
  512 open.
* A formula has at most 255 brackets open at once.
* A power that is within the limit can be followed by any number of further ones. -/
theorem parse_nesting_limit :
    (∀ s : Stream,
      (NestsWithin 512 0 s.parseUnlimited.events → s.parse = s.parseUnlimited.outcome) ∧
      (¬ NestsWithin 512 0 s.parseUnlimited.events → ∃ before position after,
        s.parseUnlimited.events = before ++ .opens position :: after ∧
          NestsWithin 512 0 before ∧ openAfter 0 before = 512 ∧
          s.parse = .error (.tooDeep 512 position))) ∧
    (∀ (source : String) (tokens us : List Token) (e : Expr),
      tokenize source = .ok tokens → parse source = .ok e → us <+: beforeEnd tokens →
        (opened [] us).length ≤ 255) ∧
    (∀ (source : String) (tokens first : List Token) (others : List (List Token)),
      tokenize source = .ok tokens → beforeEnd tokens = first ++ others.flatten →
        DerivableWithin .power 512 first → (∀ part ∈ others, Continues 512 part) →
          ∃ e, parse source = .ok e) := by
  refine ⟨fun s => s.parseWithin_cases 512, ?_, ?_⟩
  · intro source tokens us e tokenized accepted leading
    exact length_opened_le_of_parse tokenized accepted leading
  · intro source tokens first others tokenized split power follow
    obtain ⟨n, e, within, derivation⟩ := power
    obtain ⟨n, e, within, derivation⟩ :=
      DerivableWithin.flatten ⟨n, e, within, .ofTerm (.ofPower derivation)⟩ follow
    rw [← split] at derivation
    exact ⟨e, (parse_eq_ok_iff tokenized).2 ⟨n, within, derivation⟩⟩

/-- The formula `(0)+0`, and 600 signs with nothing behind them. -/
theorem parse_nesting_limit_sum_and_signs :
    let sum : Stream := ⟨[Token.opening 0 '(', Token.number 1 0, Token.closing 2 ')',
      Token.bare .plus 3, Token.number 4 0], Token.eof 6, rfl⟩
    let signs : Stream := ⟨List.replicate 600 (Token.bare .minus 0), Token.eof 601, rfl⟩
    sum.parse = sum.parseUnlimited.outcome ∧
      (opened [] [Token.opening 0 '(']).length ≤ 255 ∧
      (∃ e, parse "(0)+0" = .ok e) ∧
      ∃ before position after,
        signs.parseUnlimited.events = before ++ .opens position :: after ∧
          NestsWithin 512 0 before ∧ openAfter 0 before = 512 ∧
          signs.parse = .error (.tooDeep 512 position) := by
  intro sum signs
  obtain ⟨limited, brackets, operands⟩ := parse_nesting_limit
  have tokenized : tokenize "(0)+0" = .ok (sum.front ++ [sum.final]) := by cbv
  have bracketed : Derives .power 4
      (Token.opening 0 '(' :: ([Token.number 1 0] ++ [Token.closing 2 ')'])) (.literal 0) := by
    refine .ofFactor (.bracketed rfl (.ofTerm (.ofPower (.ofFactor (.number rfl)))) rfl ?_)
    decide
  have last : Continues 512 [Token.bare .plus 3, Token.number 4 0] :=
    .sum .plus ⟨2, .literal 0, by decide, .ofFactor (.number rfl)⟩
  refine ⟨(limited sum).1 ?_,
    brackets "(0)+0" _ _ (.plus (.literal 0) (.literal 0)) tokenized ?_ ?_,
    operands "(0)+0" _ _ [[Token.bare .plus 3, Token.number 4 0]] tokenized ?_
      ⟨4, _, by decide, bracketed⟩ ?_, (limited signs).2 ?_⟩
  · have events : sum.parseUnlimited.events =
        [.opens 0, .opens 0, .opens 1, .opens 1, .closes, .closes, .closes, .closes,
          .opens 4, .opens 4, .closes, .closes] := by
      dsimp only [sum]
      cbv
    simp [events, NestsWithin, Throughout.cons, Throughout.nil, Event.step]
  · cbv
  · exact List.prefix_iff_eq_take.2 (by cbv)
  · cbv
  · intro part membership
    rw [List.mem_singleton] at membership
    rwa [membership]
  · exact Stream.not_nestsWithin_signs rfl (by decide)

end Formulae
