import Formulae.Proofs.Lexing.Steps

/-!
# The tokens of a text

Every token that a text is split into fits its kind (`Token.Lexed`): a number carries a value, a
text carries letters and at least one of them, a bracket carries its glyph, and operators carry
nothing.  The end of the input stands behind all of them and nowhere else.
-/

namespace Formulae

open Formulae.Text (isDigit isLetter isOpening isClosing)

/-- A token before the end of the input, as a text gives it. -/
inductive Token.Lexed : Token → Prop where
  | number (position : Nat) (value : Float) : Lexed (.number position value)
  | text (position : Nat) {letters : String} :
      letters.toList ≠ [] → (∀ c ∈ letters.toList, isLetter c = true) →
      Lexed (.text position letters)
  | operator (position : Nat) {c : Char} {kind : Kind} :
      Kind.ofOperator? c = some kind → Lexed (.bare kind position)
  | opening (position : Nat) {glyph : Char} :
      isOpening glyph = true → Lexed (.opening position glyph)
  | closing (position : Nat) {glyph : Char} :
      isClosing glyph = true → Lexed (.closing position glyph)

theorem Kind.ofOperator?_ne_eof {c : Char} {kind : Kind} (operator : ofOperator? c = some kind) :
    kind ≠ .eof := by
  unfold ofOperator? at operator
  split at operator <;> cases operator <;> simp

theorem Token.Lexed.kind_ne_eof {t : Token} (lexed : t.Lexed) : t.kind ≠ .eof := by
  cases lexed with
  | operator _ operator => exact Kind.ofOperator?_ne_eof operator
  | number | text | opening | closing => simp [Token.number, Token.text, Token.opening,
      Token.closing]

theorem lexed_of_symbol? {position : Nat} {c : Char} {t : Token}
    (symbol : symbol? position c = some t) : t.Lexed := by
  rcases symbol?_cases symbol with ⟨kind, operator, rfl⟩ | ⟨opening, rfl⟩ | ⟨closing, rfl⟩
  · exact .operator position operator
  · exact .opening position opening
  · exact .closing position closing

/-- The list is made of tokens that fit their kinds and of the end of the input behind them. -/
def LexedTokens (tokens : List Token) : Prop :=
  ∃ front final, tokens = front ++ [Token.eof final] ∧ ∀ t ∈ front, t.Lexed

theorem LexedTokens.cons {t : Token} {tokens : List Token} (lexed : t.Lexed)
    (others : LexedTokens tokens) : LexedTokens (t :: tokens) := by
  obtain ⟨front, final, rfl, frontLexed⟩ := others
  refine ⟨t :: front, final, rfl, ?_⟩
  simpa using ⟨lexed, frontLexed⟩

theorem map_eq_ok_iff {ε α β : Type} {x : Except ε α} {f : α → β} {b : β} :
    x.map f = .ok b ↔ ∃ a, x = .ok a ∧ f a = b := by
  cases x with
  | error cause => simp [Except.map]
  | ok a => simp [Except.map]

/-- The tokens of a text are those that fit their kinds and the end of the input. -/
theorem lexedTokens_of_tokensFrom {position : Nat} {cs : List Char} {tokens : List Token}
    (accepted : tokensFrom position cs = .ok tokens) : LexedTokens tokens := by
  induction position, cs using tokensFrom.induct generalizing tokens with
  | case1 position =>
    rw [tokensFrom_nil] at accepted
    cases accepted
    exact ⟨[], position + 1, rfl, by simp⟩
  | case2 position c cs digit tail =>
    rename_i induction
    rw [tokensFrom_digit digit] at accepted
    obtain ⟨others, othersAccepted, rfl⟩ := map_eq_ok_iff.1 accepted
    exact (induction othersAccepted).cons (.number position _)
  | case3 position c cs notDigit letter letters =>
    rename_i induction
    rw [tokensFrom_letter letter] at accepted
    obtain ⟨others, othersAccepted, rfl⟩ := map_eq_ok_iff.1 accepted
    refine (induction othersAccepted).cons (.text position (by simp) ?_)
    intro d membership
    rcases List.mem_cons.1 (by simpa using membership) with rfl | inRun
    · exact letter
    · exact List.all_eq_true.1 List.all_takeWhile d inRun
  | case4 position c cs notDigit notLetter token symbol induction =>
    rw [tokensFrom_symbol symbol] at accepted
    obtain ⟨others, othersAccepted, rfl⟩ := map_eq_ok_iff.1 accepted
    exact (induction othersAccepted).cons (lexed_of_symbol? symbol)
  | case5 position c cs notDigit notLetter noSymbol blank induction =>
    rw [tokensFrom_blank blank] at accepted
    exact induction accepted
  | case6 position c cs notDigit notLetter noSymbol notBlank =>
    rw [tokensFrom_refused notDigit notLetter noSymbol notBlank] at accepted
    cases accepted

theorem lexedTokens_of_tokenize {source : String} {tokens : List Token}
    (accepted : tokenize source = .ok tokens) : LexedTokens tokens :=
  lexedTokens_of_tokensFrom accepted

end Formulae
