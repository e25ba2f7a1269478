import Formulae.Proofs.Grammar.Correspondence
import Formulae.Proofs.Lexing.Layout

/-!
# Layout does not matter

Two texts that differ in their layout have the same tokens up to positions.  Where the parser
accepts one of them it accepts the other with the same tree, and where it refuses one it refuses the
other for the same reason, at the place that the token of the error has moved to
(`parse_of_relaid`).

Besides the tokens of a text the parser also sees the last letters of glued runs, which it puts back
as texts of their own.  Such a letter moves with its run (`Tied.lastLetter`), and is not split
again, so that a run of letters gives rise to one of them at most.
-/

namespace Formulae

variable {tokens tokens' : List Token} {t t' : Token}

/-! ## What moves -/

namespace Token.Moved

theorem letters_eq (moved : t.Moved t') : t'.letters = t.letters := by
  rw [Token.letters, Token.letters, Token.letters?, Token.letters?, moved.payload_eq]

theorem value?_eq (moved : t.Moved t') : t'.value? = t.value? := by
  rw [Token.value?, Token.value?, moved.payload_eq]

theorem glyph?_eq (moved : t.Moved t') : t'.glyph? = t.glyph? := by
  rw [Token.glyph?, Token.glyph?, moved.payload_eq]

theorem family?_eq (moved : t.Moved t') : t'.family? = t.family? := by
  rw [Token.family?, Token.family?, moved.glyph?_eq]

end Token.Moved

/-- The second error is the first one at the place that its token has in the other list.  The
nesting may also be too deep at the last letter of a glued run, which moves with the run. -/
inductive ParseError.Moved (tokens tokens' : List Token) : ParseError → ParseError → Prop where
  | unexpected {t t' : Token} {expected : Kind} :
      (t, t') ∈ tokens.zip tokens' →
      Moved tokens tokens' (.unexpected t.kind expected t.position)
        (.unexpected t.kind expected t'.position)
  | mismatch {t t' : Token} {opening closing : Char} :
      (t, t') ∈ tokens.zip tokens' → t.kind = .closeBracket →
      Moved tokens tokens' (.mismatch opening closing t.position)
        (.mismatch opening closing t'.position)
  | tooDeep {t t' : Token} {limit : Nat} :
      (t, t') ∈ tokens.zip tokens' →
      Moved tokens tokens' (.tooDeep limit t.position) (.tooDeep limit t'.position)
  | tooDeepInside {t t' : Token} {f : Function} {offset limit : Nat} {letter : Char} :
      (t, t') ∈ tokens.zip tokens' → t.kind = .text →
      Word.read t.letters = .glued f offset letter →
      Moved tokens tokens' (.tooDeep limit (t.position + offset))
        (.tooDeep limit (t'.position + offset))

/-- Tokens at the same place of two lists, and the last letters of glued runs among them. -/
inductive Tied (tokens tokens' : List Token) : Token → Token → Prop where
  | listed {t t' : Token} : (t, t') ∈ tokens.zip tokens' → Tied tokens tokens' t t'
  | lastLetter {t t' : Token} {f : Function} {offset : Nat} {letter : Char} :
      (t, t') ∈ tokens.zip tokens' → t.kind = .text →
      Word.read t.letters = .glued f offset letter →
      Tied tokens tokens' (.text (t.position + offset) (String.singleton letter))
        (.text (t'.position + offset) (String.singleton letter))

namespace Tied

/-- A single letter is not split. -/
theorem listed_of_glued (tied : Tied tokens tokens' t t') {f : Function} {offset : Nat}
    {letter : Char} (reading : Word.read t.letters = .glued f offset letter) :
    (t, t') ∈ tokens.zip tokens' := by
  cases tied with
  | listed pair => exact pair
  | lastLetter =>
    obtain ⟨positive, single⟩ := Word.offset_of_read_glued reading
    simp [Token.letters, Token.letters?, Token.text] at single
    omega

theorem listed_of_ne_text (tied : Tied tokens tokens' t t') (other : t.kind ≠ .text) :
    (t, t') ∈ tokens.zip tokens' := by
  cases tied with
  | listed pair => exact pair
  | lastLetter => exact absurd rfl other

theorem moved (tied : Tied tokens tokens' t t') (moved : List.Forall₂ Token.Moved tokens tokens') :
    t.Moved t' := by
  cases tied with
  | listed pair => exact List.forall₂_zip moved pair
  | lastLetter => exact ⟨rfl, rfl⟩

theorem tooDeep (tied : Tied tokens tokens' t t') (limit : Nat) :
    ParseError.Moved tokens tokens' (.tooDeep limit t.position) (.tooDeep limit t'.position) := by
  cases tied with
  | listed pair => exact .tooDeep pair
  | lastLetter pair text reading => exact .tooDeepInside pair text reading

end Tied

/-- Two runs of the parser on tokens that differ in their positions only. -/
def Correspondence.ofMoved (moved : List.Forall₂ Token.Moved tokens tokens') : Correspondence where
  Tokens := Tied tokens tokens'
  Errors := ParseError.Moved tokens tokens'
  kind_eq tied := (tied.moved moved).kind_eq
  letters_eq tied := (tied.moved moved).letters_eq
  value_eq tied := (tied.moved moved).value?_eq
  glued tied text reading := .lastLetter (tied.listed_of_glued reading) text reading
  families first second := by
    rw [(first.moved moved).family?_eq, (second.moved moved).family?_eq]
  unexpected tied other := .unexpected (tied.listed_of_ne_text other)
  mismatch first second opens closes := by
    rw [(first.moved moved).glyph?_eq, (second.moved moved).glyph?_eq]
    exact .mismatch (second.listed_of_ne_text (by simp [closes])) closes
  tooDeep tied := tied.tooDeep _

/-! ## Texts -/

/-- A text in another layout has the same tokens at other positions, and the same tree, or the same
error where its token has moved to. -/
theorem parse_of_relaid {source source' : String} (accepted : tokenize source = .ok tokens)
    (relaid : Relaid [] source.toList source'.toList) :
    ∃ tokens', tokenize source' = .ok tokens' ∧ List.Forall₂ Token.Moved tokens tokens' ∧
      (∀ e, parse source = .ok e → parse source' = .ok e) ∧
      ∀ cause, parse source = .error cause →
        ∃ cause', parse source' = .error cause' ∧ ParseError.Moved tokens tokens' cause cause' := by
  obtain ⟨ts, tokens', first, accepted', moved⟩ := tokensFrom_of_relaid relaid 0 0
  obtain rfl : tokens = ts := Except.ok.inj (accepted.symm.trans first)
  have tied : List.Forall₂ (Tied tokens tokens') tokens tokens' :=
    List.forall₂_iff_zip.2 ⟨moved.length_eq, .listed⟩
  have outcomes := (Correspondence.ofMoved moved).outcomes_parse accepted accepted' tied
  exact ⟨tokens', accepted', moved, fun e => outcomes.eq_ok, fun cause => outcomes.exists_error⟩

/-- The texts `2,5sinx` and `(2]` with another separator and with more blanks. -/
theorem parse_of_relaid_spaced :
    (Relaid [] "2,5sinx".toList " 2.5 sinx\n".toList ∧
      ∃ e, parse "2,5sinx" = .ok e ∧ parse " 2.5 sinx\n" = .ok e) ∧
    (Relaid [] "(2]".toList "( 2  ]".toList ∧
      parse "(2]" = .error (.mismatch '(' ']' 2) ∧
      ∃ tokens' cause, tokenize "( 2  ]" = .ok tokens' ∧ parse "( 2  ]" = .error cause ∧
        ParseError.Moved [.opening 0 '(', .number 1 2, .closing 2 ']', .eof 4] tokens'
          (.mismatch '(' ']' 2) cause) := by
  have relaid : Relaid [] "2,5sinx".toList " 2.5 sinx\n".toList := by
    have number : Reads [] (['2'] ++ ',' :: ['5']) ['s', 'i', 'n', 'x'] _ :=
      .separated (by decide) (List.all_eq_true.1 rfl) rfl (List.all_eq_true.1 rfl) (by simp)
        (by simp; rfl)
    have word : Reads ['2', ',', '5'] ['s', 'i', 'n', 'x'] [] _ :=
      .letters (by decide) (List.all_eq_true.1 rfl) (by simp [EndsWith]; rfl) (by simp)
    have comma : List.Forall₂ Alike ['2', ',', '5'] ['2', '.', '5'] :=
      .cons (.inl rfl) (.cons (.inr ⟨rfl, rfl⟩) (.cons (.inl rfl) .nil))
    exact .inserted rfl (.lexeme number comma (.inserted rfl
      (.lexeme word (forall₂_alike_refl _) (.inserted rfl .done))))
  have relaid' : Relaid [] "(2]".toList "( 2  ]".toList := by
    have opening : Reads [] ['('] ['2', ']'] _ := .opening rfl
    have number : Reads ['('] ['2'] [']'] _ :=
      .whole (by decide) (List.all_eq_true.1 rfl) (by simp [EndsWith]; rfl) (by simp; rfl)
        (by simp; rfl)
    have closing : Reads ['(', '2'] [']'] [] _ := .closing rfl
    exact .lexeme opening (forall₂_alike_refl _) (.inserted rfl (.lexeme number
      (forall₂_alike_refl _) (.inserted rfl (.inserted rfl
        (.lexeme closing (forall₂_alike_refl _) .done)))))
  have accepted : tokenize "2,5sinx" =
      .ok [.number 0 (Decimal.ofDigits ['2'] ['5']), .text 3 "sinx", .eof 8] := by
    decide +kernel
  have refused : tokenize "(2]" = .ok [.opening 0 '(', .number 1 2, .closing 2 ']', .eof 4] := by
    decide +kernel
  have parsed : parse "2,5sinx" = .ok (.times (.literal (Decimal.ofDigits ['2'] ['5']))
      (.apply .sin (.var "x"))) := by
    decide +kernel
  have failed : parse "(2]" = .error (.mismatch '(' ']' 2) := by decide +kernel
  obtain ⟨-, -, -, trees, -⟩ := parse_of_relaid accepted relaid
  obtain ⟨tokens', accepted', -, -, errors⟩ := parse_of_relaid refused relaid'
  obtain ⟨cause, failed', moved⟩ := errors _ failed
  exact ⟨⟨relaid, _, parsed, trees _ parsed⟩, relaid', failed, tokens', cause, accepted', failed',
    moved⟩

end Formulae
