import Formulae.Proofs.Canonical.RoundTrip

/-!
# The canonical text of a text

The variables of a tree that was read from a text can be read again (`named_of_parse`), so the
canonical text of such a tree is accepted exactly if it nests at most 512 levels
(`parse_canonical_of_parse`).

The levels of a text do not bound those of its canonical text.  A sum of ones nests two levels,
whatever its length, but its canonical text has a bracket for each further term
(`parse_onesText`, `cost_ones`).
-/

namespace Formulae

open Formulae.Text (isLetter)

/-! ## Variables of a text -/

theorem Expr.occurrences_negate (e : Expr) : e.negate.occurrences = e.occurrences := by
  cases e with
  | literal value => rfl
  | var | constant | binary | apply => rfl

/-- The letters of a token of a text. -/
theorem Token.Lexed.letters {t : Token} (lexed : t.Lexed) (text : t.kind = .text) :
    t.letters.toList ≠ [] ∧ ∀ c ∈ t.letters.toList, isLetter c = true := by
  cases lexed with
  | text position nonempty letters => exact ⟨nonempty, letters⟩
  | operator position operator =>
    obtain rfl := text
    unfold Kind.ofOperator? at operator
    split at operator <;> cases operator
  | number | opening | closing => cases text

/-- A glued letter is a token of its own. -/
theorem Token.Lexed.glued {t : Token} {f : Function} {offset : Nat} {letter : Char}
    (lexed : t.Lexed) (text : t.kind = .text)
    (reading : Reading t.letters (.glued f offset letter)) :
    (Token.text (t.position + offset) (String.singleton letter)).Lexed := by
  cases reading with
  | glued _ _ _ _ split =>
    refine .text _ (by simp) ?_
    intro c membership
    obtain rfl : c = letter := by simpa using membership
    exact (lexed.letters text).2 c (by simp [split])

/-- The variables of a tree that is derived from the tokens of a text can be read. -/
theorem Derives.named {symbol : Symbol} {n : Nat} {ts : List Token} {e : Expr}
    (derivation : Derives symbol n ts e) (lexed : ∀ t ∈ ts, t.Lexed) : e.Named := by
  induction derivation with
  | ofTerm _ operand => exact operand lexed
  | ofPower _ operand => exact operand lexed
  | ofFactor _ operand => exact operand lexed
  | sum _ _ _ first second | product _ _ _ first second | raised _ _ _ first second =>
    obtain ⟨firstLexed, secondLexed⟩ := List.forall_mem_append.1 lexed
    intro name occurs
    rcases List.mem_append.1 occurs with inFirst | inSecond
    · exact first firstLexed name inFirst
    · exact second (List.forall_mem_cons.1 secondLexed).2 name inSecond
  | juxtaposition _ _ _ first second =>
    obtain ⟨firstLexed, secondLexed⟩ := List.forall_mem_append.1 lexed
    intro name occurs
    rcases List.mem_append.1 occurs with inFirst | inSecond
    · exact first firstLexed name inFirst
    · exact second secondLexed name inSecond
  | negated _ _ operand =>
    intro name occurs
    rw [Expr.occurrences_negate] at occurs
    exact operand (List.forall_mem_cons.1 lexed).2 name occurs
  | bracketed _ _ _ _ inside =>
    exact inside (List.forall_mem_append.1 (List.forall_mem_cons.1 lexed).2).1
  | number | constant | applied =>
    intro name occurs
    simp [Expr.occurrences] at occurs
  | function _ _ _ argument => exact argument (List.forall_mem_cons.1 lexed).2
  | glued text reading _ argument =>
    have token := (lexed _ (List.mem_singleton_self _)).glued text reading
    exact argument (by simpa using token)
  | var text reading =>
    obtain ⟨nonempty, letters⟩ := (lexed _ (List.mem_singleton_self _)).letters text
    have reads := read_eq_iff.2 reading
    cases reading with
    | var =>
      intro name occurs
      obtain rfl := List.mem_singleton.1 occurs
      exact ⟨nonempty, letters, reads⟩

theorem named_of_parse {source : String} {e : Expr} (accepted : parse source = .ok e) :
    e.Named := by
  cases tokens : tokenize source with
  | error cause =>
    rw [parse, tokens] at accepted
    cases accepted
  | ok ts =>
    obtain ⟨n, -, derivation⟩ := (parse_eq_ok_iff tokens).1 accepted
    exact derivation.named (lexedTokens_of_tokenize tokens).ofList_eq.2

/-! ## Long sums -/

/-- The text of a sum of ones. -/
def onesText : Nat → List Char
  | 0 => ['1']
  | n + 1 => onesText n ++ ['+', '1']

/-- The sum of ones. -/
def ones : Nat → Expr
  | 0 => .one
  | n + 1 => .plus (ones n) .one

theorem cost_ones (n : Nat) : (ones n).cost = 2 * n + 2 := by
  have one : Expr.one.cost = 2 := by decide
  induction n with
  | zero => exact one
  | succ n induction =>
    rw [ones, Expr.cost, induction, one]
    · omega
    · decide

/-- The text of a sum of ones nests two levels. -/
theorem spells_onesText (n : Nat) : Spells (onesText n) .expression 2 (ones n) := by
  have one := writes_one.term
  induction n with
  | zero => exact one.expression
  | succ n induction => exact induction.sum (.glyph (c := '+') rfl) .plus one

theorem parse_onesText (n : Nat) : parse (String.ofList (onesText n)) = .ok (ones n) := by
  have spells : Spells (String.ofList (onesText n)).toList .expression 2 (ones n) := by
    rw [String.toList_ofList]
    exact spells_onesText n
  exact (parse_of_spells spells).enough (by decide)

/-! ## Canonical text of a text -/

theorem exists_parse_canonical_iff {e : Expr} (named : e.Named) :
    (∃ e', parse e.canonical = .ok e') ↔ e.cost ≤ 512 := by
  constructor
  · rintro ⟨e', accepted⟩
    by_contra deep
    obtain ⟨position, refused⟩ := (Expr.parse_canonical_within named).lacking (by omega)
    rw [accepted] at refused
    cases refused
  · intro enough
    exact ⟨e.expand, (Expr.parse_canonical_iff named).2 enough⟩

/-- The canonical text of a formula is accepted exactly if it nests at most 512 levels. -/
theorem parse_canonical_of_parse {source : String} {e : Expr} (accepted : parse source = .ok e) :
    (∃ e', parse e.canonical = .ok e') ↔ e.cost ≤ 512 :=
  exists_parse_canonical_iff (named_of_parse accepted)

theorem parse_canonical_of_parse_ones :
    parse (String.ofList (onesText 255)) = .ok (ones 255) ∧
    ∃ e, parse (ones 255).canonical = .ok e := by
  have accepted := parse_onesText 255
  exact ⟨accepted, (parse_canonical_of_parse accepted).2 (cost_ones 255).le⟩

/-- A sum of 257 ones is accepted, but its canonical text is not. -/
theorem canonical_ones_refused :
    parse (String.ofList (onesText 256)) = .ok (ones 256) ∧
    ¬ ∃ e, parse (ones 256).canonical = .ok e := by
  have accepted := parse_onesText 256
  have deep : ¬ (ones 256).cost ≤ 512 := by
    rw [cost_ones]
    decide
  exact ⟨accepted, mt (exists_parse_canonical_iff (named_of_parse accepted)).1 deep⟩

end Formulae
