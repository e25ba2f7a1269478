import Formulae.Proofs.Grammar.Failure
import Formulae.Proofs.Grammar.Recognition
import Formulae.Proofs.Lexing.Lossless

/-!
# The first wrong token

A text that has tokens but no tree is refused because it nests too many levels or because of a
token.  In the second case the error points at the first token that is wrong.  The tokens before it
are the beginning of some formula, and with it they are the beginning of none (`IsFirstWrong`).

`Stream.refused` brings together how an expression fails and what may stand behind it.
`parse_points_at_first_wrong` says it of texts, with the characters that a mismatch names.
-/

namespace Formulae

open Formulae.Text (Family isOpening isClosing)

/-! ## Streams -/

/-- The token is wrong where certain brackets are open, or closes one although none is. -/
inductive Diagnosis (brackets : List Token) (t : Token) : List Token → ParseError → Prop where
  | inside {missing : List Token} {err : ParseError} :
      Wrong brackets t missing err → Diagnosis brackets t missing err
  | surplus : brackets = [] → t.kind = .closeBracket →
      Diagnosis brackets t [] (.unexpected t.kind .eof t.position)

variable {limit : Nat} {s rest : Stream} {err : ParseError} {before after more : List Token}
  {t : Token}

/-- A stream is refused because of the nesting or at a token.  The tokens before it can be completed,
and nothing behind it makes a difference. -/
theorem Stream.refused (refused : s.parseWithin limit = .error err) :
    (∃ limit position, err = .tooDeep limit position) ∨
      ∃ before rest missing, s.Takes before rest ∧
        Diagnosis (opened [] before) rest.peek missing err ∧
        DerivableWithin .expression limit
          (before ++ (missing ++ (opened [] before).map Token.closer)) ∧
        ∀ {s' rest' : Stream}, s'.Takes before rest' → rest'.peek = rest.peek →
          s'.parseWithin limit = .error err := by
  rw [parseWithin_eq, bind_eq_error_iff] at refused
  rcases refused with fails | ⟨⟨whole, rest⟩, runs, fails⟩
  · rcases expression_refusing limit limit s err fails with tooDeep | blockedSomewhere
    · exact .inl tooDeep
    obtain ⟨ts, rest, brackets, missing, blocked⟩ := blockedSomewhere
    have brackets_eq : opened [] ts = brackets := by
      rw [blocked.opened, List.append_nil]
    refine .inr ⟨ts, rest, missing, blocked.takes, ?_, ?_, ?_⟩
    · rw [brackets_eq]
      exact .inside blocked.wrong
    · rw [brackets_eq]
      exact blocked.completed
    · intro s' rest' takes' same
      rw [parseWithin_eq, blocked.fails takes' same, error_bind]
  · obtain ⟨n, ts, within, takes, derivation, elsewhere⟩ := expression_settles limit limit runs
    dsimp only at fails
    split at fails
    next => cases fails
    next unfinished =>
      cases fails
      have closes := (expression_stops limit limit _ _ _ runs).resolve_right unfinished
      have balanced := derivation.opened_eq []
      refine .inr ⟨ts, rest, [], takes, .surplus balanced closes, ?_, ?_⟩
      · rw [balanced]
        exact ⟨n, whole, within, by simpa using derivation⟩
      · intro s' rest' takes' same
        rw [parseWithin_eq, elsewhere takes' same, ok_bind]
        dsimp only
        rw [same, if_neg unfinished]

/-! ## Lists of tokens -/

theorem Stream.exists_toList_ofList (tokens : List Token) :
    ∃ extra, (Stream.ofList tokens).toList = tokens ++ extra := by
  unfold ofList toList
  split
  next last found =>
    split
    next =>
      obtain ⟨front, rfl⟩ := List.getLast?_eq_some_iff.1 found
      exact ⟨[], by simp⟩
    next => exact ⟨_, rfl⟩
  next none =>
    rw [List.getLast?_eq_none_iff.1 none]
    exact ⟨_, rfl⟩

theorem LexedTokens.toList_ofList {tokens : List Token} (lexed : LexedTokens tokens) :
    (Stream.ofList tokens).toList = tokens ∧ ∀ u ∈ (Stream.ofList tokens).front, u.Lexed := by
  obtain ⟨front, final, rfl, frontLexed⟩ := lexed
  have stream : Stream.ofList (front ++ [Token.eof final]) = ⟨front, Token.eof final, rfl⟩ := by
    simp [Stream.ofList, Token.eof, Token.bare]
  rw [stream]
  exact ⟨rfl, frontLexed⟩

/-- The part of a stream in front of one of its tokens can be taken. -/
theorem Stream.exists_takes (whole : s.toList = before ++ t :: after) :
    ∃ rest, s.Takes before rest ∧ rest.peek = t := by
  rcases concat_eq_append_cons whole with ⟨front, final, -⟩ | ⟨inner, -, front⟩
  · refine ⟨⟨[], s.final, s.final_kind⟩, ⟨?_, rfl⟩, final⟩
    rw [front, List.append_nil]
  · exact ⟨⟨t :: inner, s.final, s.final_kind⟩, ⟨front, rfl⟩, rfl⟩

theorem Stream.Takes.toList_eq (takes : s.Takes before rest) :
    ∃ after, s.toList = before ++ rest.peek :: after := by
  rw [Stream.toList, takes.1, takes.2]
  cases shape : rest.front with
  | nil => exact ⟨[], by simp [Stream.peek, shape]⟩
  | cons t ts => exact ⟨ts ++ [rest.final], by simp [Stream.peek, shape]⟩

/-- The tokens are those of a formula. -/
def Accepted (tokens : List Token) : Prop := ∃ e, (Stream.ofList tokens).parse = .ok e

/-- Some formula begins with the tokens, and none goes on with the token `t`. -/
structure IsFirstWrong (before : List Token) (t : Token) : Prop where
  viable : ∃ more, (∀ u ∈ more, u.Lexed) ∧ Accepted (before ++ more)
  dead : ∀ more, ¬ Accepted (before ++ t :: more)

theorem accepted_of_derivable (lexed : ∀ u ∈ more, u.Lexed)
    (derivable : DerivableWithin .expression maxDepth more) : Accepted more := by
  obtain ⟨n, e, within, derivation⟩ := derivable
  have front : (Stream.ofList more).front = more := by
    unfold Stream.ofList
    split
    next last found =>
      have unfinished := (lexed last (List.mem_of_getLast? found)).kind_ne_eof
      rw [dif_neg unfinished]
    next none => exact (List.getLast?_eq_none_iff.1 none).symm
  rw [← front] at derivation
  exact ⟨e, (Stream.parseWithin_of_derives maxDepth derivation).enough within⟩

theorem Diagnosis.lexed_missing {brackets missing : List Token}
    (diagnosis : Diagnosis brackets t missing err) : ∀ u ∈ missing, u.Lexed := by
  cases diagnosis with
  | surplus => simp
  | inside wrong =>
    cases wrong with
    | operand =>
      intro u membership
      obtain rfl := List.mem_singleton.1 membership
      exact .number _ _
    | unclosed | mismatched => simp

/-- Tokens of a text are refused because of the nesting or at the first wrong one. -/
theorem isFirstWrong_of_refused (lexed : ∀ u ∈ s.front, u.Lexed)
    (refused : s.parseWithin maxDepth = .error err) :
    (∃ limit position, err = .tooDeep limit position) ∨
      ∃ before t after missing, s.toList = before ++ t :: after ∧
        Diagnosis (opened [] before) t missing err ∧ IsFirstWrong before t := by
  rcases Stream.refused refused with tooDeep | wrong
  · exact .inl tooDeep
  obtain ⟨before, rest, missing, takes, diagnosis, completed, fails⟩ := wrong
  obtain ⟨after, whole⟩ := takes.toList_eq
  have lexedBefore : ∀ u ∈ before, u.Lexed := by
    intro u membership
    exact lexed u (takes.1 ▸ List.mem_append_left _ membership)
  have lexedClosers : ∀ u ∈ (opened [] before).map Token.closer, u.Lexed := by
    intro u membership
    obtain ⟨opening, isOpen, rfl⟩ := List.mem_map.1 membership
    rcases mem_opened isOpen with none | ⟨inside, kind⟩
    · cases none
    · exact (lexedBefore opening inside).closer kind
  have lexedMore := List.forall_mem_append.2 ⟨diagnosis.lexed_missing, lexedClosers⟩
  refine .inr ⟨before, rest.peek, after, missing, whole, diagnosis, ?_, ?_⟩
  · exact ⟨_, lexedMore,
      accepted_of_derivable (List.forall_mem_append.2 ⟨lexedBefore, lexedMore⟩) completed⟩
  · rintro more ⟨e, accepted⟩
    obtain ⟨extra, tokens⟩ := Stream.exists_toList_ofList (before ++ rest.peek :: more)
    rw [List.append_assoc, List.cons_append] at tokens
    obtain ⟨rest', takes', same⟩ := Stream.exists_takes tokens
    have failed := fails takes' same
    rw [← Stream.parse, accepted] at failed
    cases failed

/-! ## Texts -/

/-- The kinds that can be found where another one is expected. -/
inductive Unexpected : (expected found : Kind) → Prop where
  | operand {found : Kind} :
      found ∈ [.plus, .times, .divide, .power, .closeBracket, .eof] → Unexpected .number found
  | unclosed : Unexpected .closeBracket .eof
  | surplus : Unexpected .eof .closeBracket

theorem Diagnosis.unexpected {brackets missing : List Token} {found expected : Kind}
    {position : Nat}
    (diagnosis : Diagnosis brackets t missing (.unexpected found expected position)) :
    Unexpected expected found ∧ t.position = position ∧ t.kind = found := by
  cases diagnosis with
  | surplus _ kind => exact ⟨kind ▸ .surplus, rfl, rfl⟩
  | inside wrong =>
    cases wrong with
    | unclosed kind => exact ⟨kind ▸ .unclosed, rfl, rfl⟩
    | operand noFactor =>
      refine ⟨.operand ?_, rfl, rfl⟩
      cases kind : t.kind <;> simp [Kind.BeginsFactor, kind] at noFactor ⊢

/-- The token of a bracket carries the character at its position, which is such a bracket. -/
theorem bracket_of_tokenize {source : String} {tokens : List Token}
    (accepted : tokenize source = .ok tokens) (membership : t ∈ tokens) (kind : t.kind.IsBracket) :
    ∃ glyph, t.glyph? = some glyph ∧ source.toList[t.position]? = some glyph ∧
      (t.kind = .openBracket → isOpening glyph = true) ∧
      (t.kind = .closeBracket → isClosing glyph = true) := by
  obtain ⟨ls, scan, -, rfl⟩ := scan_of_tokenize accepted
  rcases List.mem_append.1 membership with inFront | last
  · obtain ⟨⟨text, t⟩, listed, rfl⟩ := List.mem_map.1 inFront
    obtain ⟨front, rest, whole, reads, -⟩ := scan.reads ⟨text, t⟩ listed
    rw [List.nil_append] at whole
    dsimp only at whole reads kind ⊢
    rw [reads.position_eq, whole]
    cases reads with
    | whole | separated | letters => rcases kind with kind | kind <;> cases kind
    | operator operator => exact absurd kind (Kind.not_isBracket_of_ofOperator? operator)
    | @opening c _ opening =>
      refine ⟨c, rfl, by simp, fun _ => opening, fun closes => ?_⟩
      cases closes
    | @closing c _ closing =>
      refine ⟨c, rfl, by simp, fun opens => ?_, fun _ => closing⟩
      cases opens
  · obtain rfl := List.mem_singleton.1 last
    rcases kind with kind | kind <;> cases kind

/-- What a mismatch is about: the innermost open bracket and a closing one of another family. -/
theorem Diagnosis.mismatch {brackets missing : List Token} {opening closing : Char}
    {position : Nat} (diagnosis : Diagnosis brackets t missing (.mismatch opening closing position)) :
    t.kind = .closeBracket ∧ t.position = position ∧ closing = t.glyph?.getD '?' ∧
      ∃ innermost outer, brackets = innermost :: outer ∧ opening = innermost.glyph?.getD '?' ∧
        innermost.family? ≠ t.family? := by
  cases diagnosis with
  | inside wrong =>
    cases wrong with
    | mismatched innermost kind families =>
      exact ⟨kind, rfl, rfl, _, _, innermost, rfl, families⟩

/-- A text that has tokens and is refused, but not for its nesting, is refused at the first wrong
token.  A token is unexpected in three ways.  A mismatch is between the innermost bracket that is
open and one of another family that would close it. -/
theorem parse_points_at_first_wrong (source : String) (tokens : List Token)
    (accepted : tokenize source = .ok tokens) :
    (∀ found expected position, parse source = .error (.unexpected found expected position) →
      Unexpected expected found ∧ ∃ before t after, tokens = before ++ t :: after ∧
        t.position = position ∧ t.kind = found ∧ IsFirstWrong before t) ∧
    ∀ opening closing position, parse source = .error (.mismatch opening closing position) →
      ∃ before t after innermost outer, tokens = before ++ t :: after ∧
        t.position = position ∧ t.kind = .closeBracket ∧ IsFirstWrong before t ∧
        opened [] before = innermost :: outer ∧
        source.toList[position]? = some closing ∧ isClosing closing = true ∧
        source.toList[innermost.position]? = some opening ∧ isOpening opening = true ∧
        Family.ofChar? opening ≠ Family.ofChar? closing := by
  obtain ⟨whole, lexedFront⟩ := (lexedTokens_of_tokenize accepted).toList_ofList
  constructor
  · intro found expected position refused
    rw [parse_of_tokenize accepted] at refused
    rcases isFirstWrong_of_refused lexedFront refused with ⟨_, _, tooDeep⟩ | wrong
    · cases tooDeep
    obtain ⟨before, t, after, missing, split, diagnosis, first⟩ := wrong
    obtain ⟨unexpected, atPosition, kind⟩ := diagnosis.unexpected
    exact ⟨unexpected, before, t, after, whole ▸ split, atPosition, kind, first⟩
  · intro opening closing position refused
    rw [parse_of_tokenize accepted] at refused
    rcases isFirstWrong_of_refused lexedFront refused with ⟨_, _, tooDeep⟩ | wrong
    · cases tooDeep
    obtain ⟨before, t, after, missing, split, diagnosis, first⟩ := wrong
    obtain ⟨kind, rfl, rfl, innermost, outer, stack, rfl, families⟩ := diagnosis.mismatch
    rw [whole] at split
    have listed : t ∈ tokens := by simp [split]
    have isOpen : innermost ∈ before ∧ innermost.kind = .openBracket := by
      have membership : innermost ∈ opened [] before := by simp [stack]
      exact (mem_opened membership).resolve_left List.not_mem_nil
    have listedOpening : innermost ∈ tokens := by simp [split, isOpen.1]
    obtain ⟨closing, glyph, stands, -, closes⟩ := bracket_of_tokenize accepted listed (.inr kind)
    obtain ⟨opening, openingGlyph, openingStands, opens, -⟩ :=
      bracket_of_tokenize accepted listedOpening (.inl isOpen.2)
    rw [Token.family?, Token.family?, glyph, openingGlyph] at families
    rw [glyph, openingGlyph]
    exact ⟨before, t, after, innermost, outer, split, rfl, kind, first, stack, stands,
      closes kind, openingStands, opens isOpen.2, families⟩

/-- In `2+*3` the second operator is wrong, and in `(2]` the closing bracket is. -/
theorem parse_points_at_first_wrong_operator_and_bracket :
    (∃ before t after,
      [Token.number 0 (Decimal.ofDigits ['2'] []), .bare .plus 1, .bare .times 2,
        .number 3 (Decimal.ofDigits ['3'] []), .eof 5] = before ++ t :: after ∧
      t.position = 2 ∧ t.kind = .times ∧ IsFirstWrong before t) ∧
    ∃ before t after innermost outer,
      [Token.opening 0 '(', .number 1 (Decimal.ofDigits ['2'] []), .closing 2 ']', .eof 4] =
        before ++ t :: after ∧
      t.position = 2 ∧ t.kind = .closeBracket ∧ IsFirstWrong before t ∧
      opened [] before = innermost :: outer ∧
      "(2]".toList[2]? = some ']' ∧ isClosing ']' = true ∧
      "(2]".toList[innermost.position]? = some '(' ∧ isOpening '(' = true ∧
      Family.ofChar? '(' ≠ Family.ofChar? ']' := by
  have sum : tokenize "2+*3" = .ok [.number 0 (Decimal.ofDigits ['2'] []), .bare .plus 1,
      .bare .times 2, .number 3 (Decimal.ofDigits ['3'] []), .eof 5] := by decide +kernel
  have bracket : tokenize "(2]" = .ok [.opening 0 '(', .number 1 (Decimal.ofDigits ['2'] []),
      .closing 2 ']', .eof 4] := by decide +kernel
  have sumRefused : parse "2+*3" = .error (.unexpected .times .number 2) := by decide +kernel
  have bracketRefused : parse "(2]" = .error (.mismatch '(' ']' 2) := by decide +kernel
  exact ⟨((parse_points_at_first_wrong _ _ sum).1 _ _ _ sumRefused).2,
    (parse_points_at_first_wrong _ _ bracket).2 _ _ _ bracketRefused⟩

end Formulae
