import Formulae.Proofs.Grammar.Correspondence
import Formulae.Proofs.Lexing.Exchange
import Mathlib.Logic.Equiv.Basic

/-!
# Brackets and their families

The brackets of a formula are well nested, and every closing bracket has the family of the opening
one that it closes (`Derives.wellNested`).  Beyond that their families mean nothing.  A text whose
brackets are exchanged for those of other families, by a permutation of the families, is the same
formula, or is refused in the same way at the same position (`parse_exchange`).

Derivations know brackets by the kinds and families of tokens, and texts know them by characters.
The two agree because every lexeme has the brackets of its token (`Reads.brackets_eq`).
-/

namespace Formulae

open Formulae.Text (Family isDigit isLetter isSeparator isOperator isBlank isBracket)

variable {before text after cs : List Char} {ls : List Lexeme} {t : Token} {ts : List Token}

/-! ## Brackets of texts and of tokens -/

namespace Text

/-- The brackets of a text, in their order. -/
def brackets (cs : List Char) : List Char := cs.filter isBracket

/-- Brackets that are well nested, each pair of one family. -/
inductive WellNested : List Char → Prop where
  | nil : WellNested []
  | append {ws vs : List Char} : WellNested ws → WellNested vs → WellNested (ws ++ vs)
  | around (f : Family) {ws : List Char} :
      WellNested ws → WellNested (f.opening :: (ws ++ [f.closing]))

@[simp] theorem brackets_append (cs ds : List Char) :
    brackets (cs ++ ds) = brackets cs ++ brackets ds :=
  List.filter_append cs ds

@[simp] theorem brackets_opening (f : Family) : brackets [f.opening] = [f.opening] := by
  cases f <;> rfl

@[simp] theorem brackets_closing (f : Family) : brackets [f.closing] = [f.closing] := by
  cases f <;> rfl

theorem brackets_eq_nil (other : ∀ c ∈ cs, isBracket c = false) : brackets cs = [] := by
  simpa [brackets] using other

end Text

open Text (brackets WellNested brackets_eq_nil)

/-- The brackets of tokens, in their order. -/
def glyphs (ts : List Token) : List Char := ts.filterMap Token.glyph?

@[simp] theorem glyphs_nil : glyphs [] = [] := rfl

@[simp] theorem glyphs_append (ts us : List Token) : glyphs (ts ++ us) = glyphs ts ++ glyphs us :=
  List.filterMap_append

@[simp] theorem glyphs_cons (t : Token) (ts : List Token) :
    glyphs (t :: ts) = t.glyph?.toList ++ glyphs ts := by
  cases glyph : t.glyph? <;> simp [glyphs, glyph]

/-- A lexeme has the bracket of its token, if it has one. -/
theorem Reads.brackets_eq (reads : Reads before text after t) :
    brackets text = t.glyph?.toList := by
  cases reads with
  | whole _ digits =>
    exact brackets_eq_nil fun c member => BracketFree.isDigit.isBracket_eq_false (digits c member)
  | separated _ digits separator fraction =>
    refine brackets_eq_nil (List.forall_mem_append.2 ⟨?_, List.forall_mem_cons.2 ⟨?_, ?_⟩⟩)
    · exact fun c member => BracketFree.isDigit.isBracket_eq_false (digits c member)
    · exact BracketFree.isSeparator.isBracket_eq_false separator
    · exact fun c member => BracketFree.isDigit.isBracket_eq_false (fraction c member)
  | letters _ letters =>
    exact brackets_eq_nil fun c member => BracketFree.isLetter.isBracket_eq_false (letters c member)
  | operator operator =>
    have other := BracketFree.isOperator.isBracket_eq_false (isOperator_iff.2 ⟨_, operator⟩)
    exact brackets_eq_nil (by simpa using other)
  | opening opening =>
    obtain ⟨f, rfl⟩ := Text.isOpening_iff.1 opening
    exact Text.brackets_opening f
  | closing closing =>
    obtain ⟨f, rfl⟩ := Text.isClosing_iff.1 closing
    exact Text.brackets_closing f

theorem Scan.brackets_eq (scan : Scan before cs ls) :
    brackets cs = glyphs (ls.map Lexeme.token) := by
  induction scan with
  | done => rfl
  | @blank before cs c ls blank _ induction =>
    have other : brackets [c] = [] :=
      brackets_eq_nil (by simpa using BracketFree.isBlank.isBracket_eq_false blank)
    rw [← List.singleton_append, Text.brackets_append, other, List.nil_append, induction]
  | lexeme reads _ induction =>
    rw [Text.brackets_append, reads.brackets_eq, induction, List.map_cons, glyphs_cons]

/-! ## Derived tokens -/

namespace Token.Lexed

theorem glyph?_eq_none (lexed : t.Lexed) (other : ¬ t.kind.IsBracket) : t.glyph? = none := by
  cases lexed with
  | number | text | operator => rfl
  | opening => exact absurd (.inl rfl) other
  | closing => exact absurd (.inr rfl) other

theorem exists_opening (lexed : t.Lexed) (opens : t.kind = .openBracket) :
    ∃ f : Family, t.glyph? = some f.opening ∧ t.family? = some f := by
  cases lexed with
  | number | text | closing => cases opens
  | operator _ operator => exact absurd (.inl opens) (Kind.not_isBracket_of_ofOperator? operator)
  | opening _ opening =>
    obtain ⟨f, rfl⟩ := Text.isOpening_iff.1 opening
    exact ⟨f, rfl, Family.ofChar?_opening f⟩

theorem exists_closing (lexed : t.Lexed) (closes : t.kind = .closeBracket) :
    ∃ f : Family, t.glyph? = some f.closing ∧ t.family? = some f := by
  cases lexed with
  | number | text | opening => cases closes
  | operator _ operator => exact absurd (.inr closes) (Kind.not_isBracket_of_ofOperator? operator)
  | closing _ closing =>
    obtain ⟨f, rfl⟩ := Text.isClosing_iff.1 closing
    exact ⟨f, rfl, Family.ofChar?_closing f⟩

end Token.Lexed

/-- A token that is no bracket may stand between well nested brackets. -/
theorem wellNested_glyphs {us : List Token} (other : ¬ t.kind.IsBracket)
    (lexed : ∀ u ∈ ts ++ t :: us, u.Lexed)
    (first : (∀ u ∈ ts, u.Lexed) → WellNested (glyphs ts))
    (second : (∀ u ∈ us, u.Lexed) → WellNested (glyphs us)) :
    WellNested (glyphs (ts ++ t :: us)) := by
  obtain ⟨lexedFirst, lexedRest⟩ := List.forall_mem_append.1 lexed
  obtain ⟨lexedToken, lexedSecond⟩ := List.forall_mem_cons.1 lexedRest
  rw [glyphs_append, glyphs_cons, lexedToken.glyph?_eq_none other]
  exact .append (first lexedFirst) (second lexedSecond)

/-- The brackets of derived tokens are well nested, each pair of one family. -/
theorem Derives.wellNested {symbol : Symbol} {n : Nat} {e : Expr}
    (derivation : Derives symbol n ts e) (lexed : ∀ t ∈ ts, t.Lexed) : WellNested (glyphs ts) := by
  induction derivation with
  | ofTerm _ induction | ofPower _ induction | ofFactor _ induction => exact induction lexed
  | sum _ additive _ first second =>
    exact wellNested_glyphs additive.not_isBracket lexed first second
  | product _ multiplicative _ first second =>
    exact wellNested_glyphs multiplicative.not_isBracket lexed first second
  | juxtaposition _ _ _ first second =>
    obtain ⟨lexedFirst, lexedSecond⟩ := List.forall_mem_append.1 lexed
    rw [glyphs_append]
    exact .append (first lexedFirst) (second lexedSecond)
  | raised _ raising _ first second =>
    exact wellNested_glyphs (by simp [Kind.IsBracket, raising]) lexed first second
  | negated kind _ operand | function kind _ _ operand =>
    obtain ⟨lexedFirst, lexedRest⟩ := List.forall_mem_cons.1 lexed
    rw [glyphs_cons, lexedFirst.glyph?_eq_none (by simp [Kind.IsBracket, kind])]
    exact operand lexedRest
  | bracketed opens _ closes families inside =>
    obtain ⟨lexedOpening, lexedRest⟩ := List.forall_mem_cons.1 lexed
    obtain ⟨lexedInside, lexedClosing⟩ := List.forall_mem_append.1 lexedRest
    obtain ⟨f, opening, family⟩ := lexedOpening.exists_opening opens
    obtain ⟨g, closing, family'⟩ := (lexedClosing _ List.mem_cons_self).exists_closing closes
    -- The parser compares the families, and a glyph is determined by its family and its side.
    obtain rfl : f = g := by simpa [family, family'] using families
    rw [glyphs_cons, glyphs_append, glyphs_cons, opening, closing]
    exact .around f (inside lexedInside)
  | number kind | constant kind | applied kind | glued kind | var kind =>
    have other := (lexed _ List.mem_cons_self).glyph?_eq_none (by simp [Kind.IsBracket, kind])
    rw [glyphs_cons, other]
    exact .nil

/-- The brackets of a formula are well nested. -/
theorem wellNested_of_parse {source : String} {e : Expr} (accepted : parse source = .ok e) :
    WellNested (brackets source.toList) := by
  cases tokenized : tokenize source with
  | error cause =>
    rw [parse, tokenized] at accepted
    cases accepted
  | ok tokens =>
    obtain ⟨ls, scan, -, whole⟩ := scan_of_tokenize tokenized
    obtain ⟨n, -, derivation⟩ := (parse_eq_ok_iff tokenized).1 accepted
    obtain ⟨fronts, lexed⟩ := (lexedTokens_of_tokenize tokenized).ofList_eq
    have same : beforeEnd tokens = ls.map Lexeme.token := by
      have list := (lexedTokens_of_tokenize tokenized).toList_ofList.1
      rw [Stream.toList, fronts, whole] at list
      rw [whole]
      exact (List.append_inj' list rfl).1
    rw [scan.brackets_eq, ← same]
    exact derivation.wellNested lexed

/-! ## Exchanged families -/

/-- The error with its brackets exchanged. -/
def ParseError.exchange (σ : Equiv.Perm Family) : ParseError → ParseError
  | .mismatch opening closing position =>
    .mismatch (Text.exchange σ opening) (Text.exchange σ closing) position
  | other => other

@[simp] theorem ParseError.position_exchange (σ : Equiv.Perm Family) (cause : ParseError) :
    (cause.exchange σ).position = cause.position := by
  cases cause <;> rfl

variable {σ : Equiv.Perm Family}

@[simp] theorem Token.letters_exchange : (t.exchange σ).letters = t.letters := by
  simp [Token.letters]

@[simp] theorem Token.family?_exchange : (t.exchange σ).family? = t.family?.map σ := by
  rw [family?, family?, glyph?_exchange]
  cases t.glyph? with
  | none => rfl
  | some glyph => exact Family.ofChar?_exchange glyph

theorem Token.getD_glyph?_exchange :
    (t.exchange σ).glyph?.getD '?' = Text.exchange σ (t.glyph?.getD '?') := by
  rw [glyph?_exchange]
  cases t.glyph? with
  | none => exact (Text.exchange_eq_self rfl).symm
  | some glyph => rfl

/-- Two runs of the parser on tokens with brackets of other families. -/
def Correspondence.exchanged (σ : Equiv.Perm Family) : Correspondence where
  Tokens t t' := t' = t.exchange σ
  Errors cause cause' := cause' = cause.exchange σ
  kind_eq := by
    rintro t _ rfl
    exact Token.kind_exchange
  letters_eq := by
    rintro t _ rfl
    exact Token.letters_exchange
  value_eq := by
    rintro t _ rfl
    exact Token.value?_exchange
  glued := by
    rintro t _ f offset letter rfl - -
    rw [Token.position_exchange]
    rfl
  families := by
    rintro o _ c _ rfl rfl
    rw [Token.family?_exchange, Token.family?_exchange]
    exact (Option.map_injective σ.injective).eq_iff
  unexpected := by
    rintro t _ expected rfl -
    rw [Token.position_exchange]
    rfl
  mismatch := by
    rintro o _ c _ rfl rfl - -
    rw [Token.getD_glyph?_exchange, Token.getD_glyph?_exchange, Token.position_exchange]
    rfl
  tooDeep := by
    rintro t _ limit rfl
    rw [Token.position_exchange]
    rfl

/-- A text with brackets of other families has the same tree, or the same error with its brackets
exchanged. -/
theorem parse_exchange (σ : Equiv.Perm Family) (source : String) :
    parse (source.map (Text.exchange σ)) = (parse source).mapError (ParseError.exchange σ) := by
  have tokens : tokenize (source.map (Text.exchange σ)) =
      (tokenize source).map (List.map (Token.exchange σ)) := by
    rw [tokenize, String.toList_map]
    exact tokensFrom_exchange σ 0 source.toList
  cases tokenized : tokenize source with
  | error cause =>
    rw [tokenized] at tokens
    rw [parse, parse, tokens, tokenized]
    rfl
  | ok ts =>
    rw [tokenized] at tokens
    have corresponds : List.Forall₂ (Correspondence.exchanged σ).Tokens ts
        (ts.map (Token.exchange σ)) :=
      List.forall₂_map_right_iff.2 (List.forall₂_same.2 fun _ _ => rfl)
    have outcomes := (Correspondence.exchanged σ).outcomes_parse tokenized tokens corresponds
    generalize parse source = outcome at outcomes
    generalize parse (source.map (Text.exchange σ)) = outcome' at outcomes
    cases outcomes with
    | ok same => exact congrArg _ same.symm
    | error causes => exact congrArg _ causes

/-- Brackets are matched by their families, and the families mean nothing else. -/
theorem parse_wellNested_and_exchange :
    (∀ (source : String) (e : Expr), parse source = .ok e →
      WellNested (brackets source.toList)) ∧
    ∀ (σ : Equiv.Perm Family) (source : String),
      parse (source.map (Text.exchange σ)) = (parse source).mapError (ParseError.exchange σ) :=
  ⟨fun _ _ => wellNested_of_parse, parse_exchange⟩

/-- The brackets of `[x(y)]<2>` are well nested.  With round and angle brackets swapped, `(2]` is
refused like `<2]`. -/
theorem parse_wellNested_and_exchange_swap :
    parse "[x(y)]<2>" = .ok (.times (.times (.var "x") (.var "y")) (.literal 2)) ∧
    WellNested ['[', '(', ')', ']', '<', '>'] ∧
    parse "(2]" = .error (.mismatch '(' ']' 2) ∧ parse "<2]" = .error (.mismatch '<' ']' 2) := by
  obtain ⟨nested, exchanges⟩ := parse_wellNested_and_exchange
  have accepted : parse "[x(y)]<2>" =
      .ok (.times (.times (.var "x") (.var "y")) (.literal 2)) := by
    decide +kernel
  have refused : parse "(2]" = .error (.mismatch '(' ']' 2) := by decide +kernel
  have swapped : "(2]".map (Text.exchange (Equiv.swap .round .angle)) = "<2]" := by
    decide +kernel
  have exchanged := exchanges (Equiv.swap .round .angle) "(2]"
  rw [swapped, refused] at exchanged
  exact ⟨accepted, nested _ _ accepted, refused, exchanged⟩

end Formulae
