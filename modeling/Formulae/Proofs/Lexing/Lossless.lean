import Formulae.Proofs.Lexing.Lexemes
import Mathlib.Data.List.Induction

/-!
# Nothing of a text is lost

A character is misplaced in a text if it is outside the alphabet, or a separator right behind
something else than a digit, or the second separator of one number.  Whether it is depends on what
stands before it and on nothing behind it.

`answer_tokensFrom` says what the lexer makes of the rest of a text.  If no character is misplaced,
the rest consists of the lexemes of the tokens and of blanks.  Otherwise the lexer reports the first
character that is.  The induction is along the lexer.  Between two lexemes it needs to know that
what follows is not a part of what was read (`Seam`), which is where a lexeme is as long as
possible, and so where the next one begins.
-/

namespace Formulae

open Formulae.Text (isDigit isLetter isSeparator isOperator isOpening isClosing isBlank)
open Formulae.Decimal (ofDigits)

/-! ## The alphabet -/

/-- The character may stand in a formula. -/
def InAlphabet (c : Char) : Prop :=
  isDigit c = true ∨ isLetter c = true ∨ isSeparator c = true ∨ isOperator c = true ∨
    isOpening c = true ∨ isClosing c = true ∨ isBlank c = true

section

variable {c : Char} {position : Nat}

theorem inAlphabet_of_symbol? {t : Token} (symbol : symbol? position c = some t) :
    InAlphabet c := by
  by_contra outside
  simp only [InAlphabet, not_or, Bool.not_eq_true] at outside
  obtain ⟨-, -, -, operator, opening, closing, -⟩ := outside
  rw [symbol?_eq_none_iff.2 ⟨operator, opening, closing⟩] at symbol
  cases symbol

end

/-! ## Misplaced characters -/

/-- The text ends in a number that has its separator. -/
def EndsInFraction (cs : List Char) : Prop :=
  ∃ front separator fraction, cs = front ++ separator :: fraction ∧ EndsWith isDigit front ∧
    isSeparator separator = true ∧ ∀ c ∈ fraction, isDigit c = true

/-- The character cannot stand behind the text. -/
inductive Misplaced (before : List Char) (c : Char) : Prop where
  | foreign : ¬ InAlphabet c → Misplaced before c
  | detached : isSeparator c = true → ¬ EndsWith isDigit before → Misplaced before c
  | second : isSeparator c = true → EndsInFraction before → Misplaced before c

/-- No character of the text is misplaced. -/
def WellPlaced (cs : List Char) : Prop :=
  ∀ before c after, cs = before ++ c :: after → ¬ Misplaced before c

section

variable {c d : Char} {before cs run rest : List Char}

theorem not_misplaced (inside : InAlphabet c) (notSeparator : isSeparator c = false) :
    ¬ Misplaced before c := by
  rintro (outside | separator | separator)
  · exact outside inside
  · simp [notSeparator] at separator
  · simp [notSeparator] at separator

/-- Where a member of a longer list stands. -/
theorem concat_eq_append_cons {α : Type} {front before after : List α} {a b : α}
    (whole : front ++ [a] = before ++ b :: after) :
    (front = before ∧ a = b ∧ after = []) ∨
      ∃ inner, after = inner ++ [a] ∧ front = before ++ b :: inner := by
  rcases List.eq_nil_or_concat after with rfl | ⟨inner, last, rfl⟩
  · obtain ⟨shorter, same⟩ := List.append_inj' whole rfl
    exact .inl ⟨shorter, List.singleton_inj.1 same, rfl⟩
  · rw [List.concat_eq_append, ← List.cons_append, ← List.append_assoc] at whole
    obtain ⟨shorter, same⟩ := List.append_inj' whole rfl
    obtain rfl := List.singleton_inj.1 same
    exact .inr ⟨inner, List.concat_eq_append, shorter⟩

theorem WellPlaced.nil : WellPlaced [] := by
  intro before c after whole
  simp at whole

theorem WellPlaced.concat (placed : WellPlaced cs) (fits : ¬ Misplaced cs c) :
    WellPlaced (cs ++ [c]) := by
  intro before d after whole
  rcases concat_eq_append_cons whole with ⟨rfl, rfl, -⟩ | ⟨inner, -, front⟩
  · exact fits
  · exact placed before d inner front

/-- Characters that are no separators can stand everywhere. -/
theorem WellPlaced.append_run (placed : WellPlaced cs)
    (fits : ∀ c ∈ run, InAlphabet c ∧ isSeparator c = false) : WellPlaced (cs ++ run) := by
  induction run generalizing cs with
  | nil => simpa using placed
  | cons c run induction =>
    obtain ⟨first, others⟩ := List.forall_mem_cons.1 fits
    have longer := induction (placed.concat (not_misplaced first.1 first.2)) others
    rwa [List.append_assoc, List.singleton_append] at longer

theorem WellPlaced.append_digits (placed : WellPlaced cs) (digits : ∀ c ∈ run, isDigit c = true) :
    WellPlaced (cs ++ run) :=
  placed.append_run fun c membership =>
    ⟨.inl (digits c membership), isSeparator_eq_false_of_isDigit (digits c membership)⟩

/-- The last character of a text that ends in a number with its separator. -/
theorem EndsInFraction.last (ends : EndsInFraction (cs ++ [c])) :
    isDigit c = true ∨ isSeparator c = true := by
  obtain ⟨front, separator, fraction, whole, -, separates, digits⟩ := ends
  rcases concat_eq_append_cons whole with ⟨-, rfl, -⟩ | ⟨inner, rfl, -⟩
  · exact .inr separates
  · exact .inl (digits c (by simp))

/-- Digits do not bring in a separator. -/
theorem EndsInFraction.of_append_digits (ends : EndsInFraction (cs ++ run))
    (digits : ∀ c ∈ run, isDigit c = true) : EndsInFraction cs := by
  induction run using List.reverseRecOn with
  | nil => simpa using ends
  | append_singleton run last induction =>
    obtain ⟨others, lastDigit⟩ := List.forall_mem_append.1 digits
    obtain ⟨front, separator, fraction, whole, endsWith, separates, fractionDigits⟩ := ends
    rw [← List.append_assoc] at whole
    rcases concat_eq_append_cons whole with ⟨-, rfl, -⟩ | ⟨inner, rfl, shorter⟩
    · have noSeparator := isSeparator_eq_false_of_isDigit (lastDigit last (by simp))
      simp [separates] at noSeparator
    · exact induction ⟨front, separator, inner, shorter, endsWith, separates,
        (List.forall_mem_append.1 fractionDigits).1⟩ others

end

/-! ## Between two lexemes -/

/-- What follows is no part of what stands before it, and a separator there is misplaced. -/
structure Seam (before rest : List Char) : Prop where
  digit : StartsWith isDigit rest → ¬ EndsWith isDigit before ∧ ¬ EndsInFraction before
  letter : StartsWith isLetter rest → ¬ EndsWith isLetter before
  separator : StartsWith isSeparator rest → ¬ EndsWith isDigit before ∨ EndsInFraction before

section

variable {before text after cs rest : List Char} {c : Char} {t : Token}

theorem EndsInFraction.ne_nil (ends : EndsInFraction cs) : cs ≠ [] := by
  obtain ⟨front, separator, fraction, rfl, -⟩ := ends
  simp

theorem Seam.nil : Seam [] rest where
  digit _ := ⟨not_endsWith_nil, fun ends => ends.ne_nil rfl⟩
  letter _ := not_endsWith_nil
  separator _ := .inl not_endsWith_nil

/-- A text that does not end in a number. -/
theorem Seam.concat (notDigit : isDigit c = false) (notSeparator : isSeparator c = false)
    (letter : StartsWith isLetter rest → isLetter c = false) : Seam (before ++ [c]) rest := by
  have noDigit : ¬ EndsWith isDigit (before ++ [c]) := by simp [notDigit]
  refine ⟨fun _ => ⟨noDigit, fun ends => ?_⟩, fun starts => ?_, fun _ => .inl noDigit⟩
  · rcases ends.last with digit | separator
    · simp [notDigit] at digit
    · simp [notSeparator] at separator
  · simp [letter starts]

/-! ## Single lexemes -/

/-- A lexeme at the front of the rest of a text. -/
structure Begins (before cs text after : List Char) (t : Token) : Prop where
  whole : cs = text ++ after
  reads : Reads before text after t
  placed : WellPlaced (before ++ text)
  seam : Seam (before ++ text) after

section

variable {digits : List Char} (nonempty : digits ≠ []) (allDigits : ∀ d ∈ digits, isDigit d = true)
  (noDigit : ¬ EndsWith isDigit before) (placed : WellPlaced before)

include nonempty allDigits noDigit placed

theorem begins_whole (stops : ¬ StartsWith isDigit rest) (bare : ¬ StartsWith isSeparator rest) :
    Begins before (digits ++ rest) digits rest (.number before.length (ofDigits digits [])) where
  whole := rfl
  reads := by
    have value : ofDigits digits [] = Number.nearest (Decimal.natOfDigits digits) 1 := by
      simp [ofDigits]
    rw [value]
    exact .whole nonempty allDigits noDigit stops bare
  placed := placed.append_digits allDigits
  seam := by
    refine ⟨fun starts => absurd starts stops, fun _ => ?_, fun starts => absurd starts bare⟩
    rw [endsWith_append_of_ne_nil nonempty]
    exact not_endsWith_of_forall fun d membership =>
      isLetter_eq_false_of_isDigit (allDigits d membership)

/-- The separator of a number is well placed, because the number has none so far. -/
theorem begins_separated (noFraction : ¬ EndsInFraction before) (separator : isSeparator c = true) :
    Begins before (digits ++ c :: cs) (digits ++ c :: cs.takeWhile isDigit) (cs.dropWhile isDigit)
      (.number before.length (ofDigits digits (cs.takeWhile isDigit))) := by
  have fraction : ∀ d ∈ cs.takeWhile isDigit, isDigit d = true :=
    List.all_eq_true.1 List.all_takeWhile
  have endsInDigit : EndsWith isDigit (before ++ digits) := by
    rw [endsWith_append_of_ne_nil nonempty]
    exact endsWith_of_forall nonempty allDigits
  have fits : ¬ Misplaced (before ++ digits) c := by
    rintro (outside | ⟨-, detached⟩ | ⟨-, second⟩)
    · exact outside (.inr (.inr (.inl separator)))
    · exact detached endsInDigit
    · exact noFraction (second.of_append_digits allDigits)
  have ends : EndsInFraction (before ++ (digits ++ c :: cs.takeWhile isDigit)) :=
    ⟨before ++ digits, c, cs.takeWhile isDigit, by simp, endsInDigit, separator, fraction⟩
  have stops := not_startsWith_dropWhile isDigit cs
  refine ⟨by simp, .separated nonempty allDigits separator fraction noDigit stops, ?_,
    fun starts => absurd starts stops, fun _ => ?_, fun _ => .inr ends⟩
  · have longer := ((placed.append_digits allDigits).concat fits).append_digits fraction
    simpa using longer
  · rw [endsWith_append_of_ne_nil (by simp)]
    refine not_endsWith_of_forall fun d membership => ?_
    rcases List.mem_append.1 membership with inDigits | inRest
    · exact isLetter_eq_false_of_isDigit (allDigits d inDigits)
    rcases List.mem_cons.1 inRest with rfl | inFraction
    · exact (of_isSeparator 0 separator).2.1
    · exact isLetter_eq_false_of_isDigit (fraction d inFraction)

/-- The number that begins with given digits. -/
theorem begins_number (noFraction : ¬ EndsInFraction before)
    (stops : ¬ StartsWith isDigit rest) :
    ∃ text, Begins before (digits ++ rest) text (splitFraction rest).2
      (.number before.length (ofDigits digits (splitFraction rest).1)) := by
  by_cases separated : StartsWith isSeparator rest
  · cases rest with
    | nil => exact absurd separated not_startsWith_nil
    | cons c cs =>
      have separator : isSeparator c = true := by simpa using separated
      rw [splitFraction, if_pos separator]
      exact ⟨_, begins_separated nonempty allDigits noDigit placed noFraction separator⟩
  · rw [splitFraction_of_head? (not_startsWith_iff.1 separated)]
    exact ⟨_, begins_whole nonempty allDigits noDigit placed stops separated⟩

end

theorem begins_letters (letter : isLetter c = true) (noLetter : ¬ EndsWith isLetter before)
    (placed : WellPlaced before) :
    Begins before (c :: cs) (c :: cs.takeWhile isLetter) (cs.dropWhile isLetter)
      (.text before.length (String.ofList (c :: cs.takeWhile isLetter))) := by
  have letters : ∀ d ∈ c :: cs.takeWhile isLetter, isLetter d = true :=
    List.forall_mem_cons.2 ⟨letter, List.all_eq_true.1 List.all_takeWhile⟩
  have stops := not_startsWith_dropWhile isLetter cs
  refine ⟨by simp, .letters (by simp) letters noLetter stops, ?_, ?_⟩
  · exact placed.append_run fun d membership =>
      ⟨.inr (.inl (letters d membership)), isSeparator_eq_false_of_isLetter (letters d membership)⟩
  · obtain ⟨inner, last, split⟩ : ∃ inner last, c :: cs.takeWhile isLetter = inner ++ [last] :=
      ⟨_, _, (List.dropLast_append_getLast (List.cons_ne_nil _ _)).symm⟩
    have lastLetter : isLetter last = true := letters last (by simp [split])
    rw [split, ← List.append_assoc]
    exact .concat (isDigit_of_isLetter lastLetter) (isSeparator_eq_false_of_isLetter lastLetter)
      fun starts => absurd starts stops

theorem begins_symbol (symbol : symbol? before.length c = some t) (placed : WellPlaced before) :
    Begins before (c :: cs) [c] cs t := by
  obtain ⟨notDigit, notLetter, notSeparator, -⟩ := of_symbol? symbol
  refine ⟨rfl, ?_, placed.concat (not_misplaced (inAlphabet_of_symbol? symbol) notSeparator),
    .concat notDigit notSeparator fun _ => notLetter⟩
  rcases symbol?_cases symbol with ⟨kind, operator, rfl⟩ | ⟨opening, rfl⟩ | ⟨closing, rfl⟩
  · exact .operator operator
  · exact .opening opening
  · exact .closing closing

/-! ## Between the lexemes -/

theorem WellPlaced.concat_blank (placed : WellPlaced before) (blank : isBlank c = true) :
    WellPlaced (before ++ [c]) :=
  placed.concat (not_misplaced (.inr (.inr (.inr (.inr (.inr (.inr blank))))))
    (of_isBlank 0 blank).2.2.1)

theorem Seam.concat_blank (blank : isBlank c = true) : Seam (before ++ [c]) rest := by
  obtain ⟨notDigit, notLetter, notSeparator, -⟩ := of_isBlank 0 blank
  exact .concat notDigit notSeparator fun _ => notLetter

/-- A character that begins no lexeme and is no blank. -/
theorem Seam.misplaced {position : Nat} (seam : Seam before (c :: cs))
    (notDigit : ¬ isDigit c = true) (notLetter : ¬ isLetter c = true)
    (noSymbol : symbol? position c = none) (notBlank : ¬ isBlank c = true) :
    Misplaced before c := by
  by_cases separator : isSeparator c = true
  · rcases seam.separator (by simpa using separator) with detached | second
    · exact .detached separator detached
    · exact .second separator second
  · obtain ⟨notOperator, notOpening, notClosing⟩ := symbol?_eq_none_iff.1 noSymbol
    exact .foreign (by simp [InAlphabet, notDigit, notLetter, separator, notOperator,
      notOpening, notClosing, notBlank])

/-! ## The lexer -/

/-- What the lexer makes of the rest of a text. -/
inductive Answer (before cs : List Char) : Except LexError (List Token) → Prop where
  | accepted {ls : List Lexeme} :
      Scan before cs ls → WellPlaced (before ++ cs) →
      Answer before cs (.ok (ls.map Lexeme.token ++ [Token.eof ((before ++ cs).length + 1)]))
  | refused {front after : List Char} {c : Char} :
      before ++ cs = front ++ c :: after → WellPlaced front → Misplaced front c →
      Answer before cs (.error ⟨c, front.length⟩)

theorem Answer.lexeme {outcome : Except LexError (List Token)}
    (begins : Begins before cs text after t) (answer : Answer (before ++ text) after outcome) :
    Answer before cs (outcome.map (t :: ·)) := by
  obtain ⟨rfl, reads, -, -⟩ := begins
  cases answer with
  | accepted scan placed =>
    rw [List.append_assoc] at placed
    rw [List.append_assoc]
    exact .accepted (.lexeme reads scan) placed
  | refused whole placed misplaced =>
    rw [List.append_assoc] at whole
    exact .refused whole placed misplaced

theorem Answer.blank {outcome : Except LexError (List Token)} (blank : isBlank c = true)
    (answer : Answer (before ++ [c]) cs outcome) : Answer before (c :: cs) outcome := by
  have same : before ++ [c] ++ cs = before ++ c :: cs := by simp
  cases answer with
  | accepted scan placed =>
    rw [same] at placed ⊢
    exact .accepted (.blank blank scan) placed
  | refused whole placed misplaced =>
    rw [same] at whole
    exact .refused whole placed misplaced

/-- A text is split into lexemes and blanks up to the first character that is misplaced. -/
theorem answer_tokensFrom (placed : WellPlaced before) (seam : Seam before cs) :
    Answer before cs (tokensFrom before.length cs) := by
  generalize origin : before.length = position
  induction position, cs using tokensFrom.induct generalizing before with
  | case1 position =>
    have whole : Answer before [] _ := .accepted .done (by simpa using placed)
    rw [tokensFrom_nil, ← origin]
    simpa using whole
  | case2 position c cs digit tail =>
    rename_i induction
    subst origin
    obtain ⟨noDigit, noFraction⟩ := seam.digit (by simpa using digit)
    have digits : ∀ d ∈ c :: cs.takeWhile isDigit, isDigit d = true :=
      List.forall_mem_cons.2 ⟨digit, List.all_eq_true.1 List.all_takeWhile⟩
    obtain ⟨text, begins⟩ := begins_number (List.cons_ne_nil _ _) digits noDigit placed noFraction
      (not_startsWith_dropWhile isDigit cs)
    rw [List.cons_append, List.takeWhile_append_dropWhile] at begins
    have behind : (before ++ text).length = before.length + (cs.length + 1 - tail.2.length) := by
      have lengths : (c :: cs).length = (text ++ tail.2).length := congrArg List.length begins.whole
      rw [List.length_append, List.length_cons] at lengths
      rw [List.length_append]
      omega
    rw [tokensFrom_digit digit]
    exact .lexeme begins (induction begins.placed begins.seam behind)
  | case3 position c cs notDigit letter letters =>
    rename_i induction
    subst origin
    have begins : Begins before (c :: cs) _ _ _ :=
      begins_letters letter (seam.letter (by simpa using letter)) placed
    have behind : (before ++ letters).length = before.length + letters.length := List.length_append
    rw [tokensFrom_letter letter]
    exact .lexeme begins (induction begins.placed begins.seam behind)
  | case4 position c cs notDigit notLetter token symbol induction =>
    subst origin
    have begins : Begins before (c :: cs) _ _ _ := begins_symbol symbol placed
    rw [tokensFrom_symbol symbol]
    exact .lexeme begins (induction begins.placed begins.seam List.length_append)
  | case5 position c cs notDigit notLetter noSymbol blank induction =>
    subst origin
    rw [tokensFrom_blank blank]
    exact .blank blank (induction (placed.concat_blank blank) (.concat_blank blank)
      List.length_append)
  | case6 position c cs notDigit notLetter noSymbol notBlank =>
    subst origin
    rw [tokensFrom_refused notDigit notLetter noSymbol notBlank]
    exact .refused rfl placed (seam.misplaced notDigit notLetter noSymbol notBlank)

end

/-! ## Whole texts -/

theorem answer_tokenize (source : String) : Answer [] source.toList (tokenize source) :=
  answer_tokensFrom .nil .nil

/-- The character is misplaced where the error says, and none before it is. -/
def LexError.IsFirst (e : LexError) (cs : List Char) : Prop :=
  ∃ before after, cs = before ++ e.character :: after ∧ e.position = before.length ∧
    Misplaced before e.character ∧ WellPlaced before

/-- A misplaced character stands behind every front of the text that has none. -/
theorem Misplaced.length_le {before front after rest : List Char} {c : Char}
    (misplaced : Misplaced before c) (placed : WellPlaced front)
    (same : before ++ c :: after = front ++ rest) : front.length ≤ before.length := by
  rcases List.append_eq_append_iff.1 same with ⟨inner, rfl, others⟩ | ⟨inner, rfl, -⟩
  · cases inner with
    | nil => simp
    | cons d inner =>
      obtain ⟨rfl, -⟩ := List.cons_eq_cons.1 others
      exact absurd misplaced (placed before _ inner rfl)
  · simp

theorem LexError.IsFirst.unique {cs : List Char} {e e' : LexError} (first : e.IsFirst cs)
    (second : e'.IsFirst cs) : e = e' := by
  obtain ⟨before, after, rfl, position, misplaced, placed⟩ := first
  obtain ⟨before', after', same, position', misplaced', placed'⟩ := second
  have lengths : before.length = before'.length :=
    Nat.le_antisymm (misplaced'.length_le placed same.symm) (misplaced.length_le placed' same)
  obtain ⟨-, others⟩ := List.append_inj same lengths
  obtain ⟨character, -⟩ := List.cons_eq_cons.1 others
  rw [lengths, ← position'] at position
  cases e
  cases e'
  cases character
  cases position
  rfl

theorem tokenize_eq_error_iff {source : String} {e : LexError} :
    tokenize source = .error e ↔ e.IsFirst source.toList := by
  have answer := answer_tokenize source
  constructor
  · intro refused
    rw [refused] at answer
    cases answer with
    | refused whole placed misplaced => exact ⟨_, _, whole, rfl, misplaced, placed⟩
  · intro first
    cases outcome : tokenize source with
    | ok tokens =>
      obtain ⟨before, after, whole, -, misplaced, -⟩ := first
      rw [outcome] at answer
      cases answer with
      | accepted _ placed => exact absurd misplaced (placed before _ after whole)
    | error e' =>
      rw [outcome] at answer
      cases answer with
      | @refused front after c whole placed misplaced =>
        have second : LexError.IsFirst ⟨c, front.length⟩ source.toList :=
          ⟨front, after, whole, rfl, misplaced, placed⟩
        rw [first.unique second]

/-- The lexemes of a text that is accepted. -/
theorem scan_of_tokenize {source : String} {tokens : List Token}
    (accepted : tokenize source = .ok tokens) :
    ∃ ls, Scan [] source.toList ls ∧ WellPlaced source.toList ∧
      tokens = ls.map Lexeme.token ++ [Token.eof (source.toList.length + 1)] := by
  have answer := answer_tokenize source
  rw [accepted] at answer
  cases answer with
  | accepted scan placed => exact ⟨_, scan, placed, rfl⟩

/-- The tokens of a text are read from parts of it that are as long as possible, in their order,
and nothing but blanks stands outside these parts.  There are no tokens exactly if some character is
misplaced, and the first such character is reported. -/
theorem tokenize_lossless (source : String) :
    (∀ tokens, tokenize source = .ok tokens →
      tokens.Pairwise (fun t u => t.position < u.position) ∧
      ∃ lexemes : List Lexeme,
        tokens = lexemes.map Lexeme.token ++ [Token.eof (source.toList.length + 1)] ∧
        (∀ l ∈ lexemes, l.token.kind ≠ .eof ∧ ∃ before after,
          source.toList = before ++ l.text ++ after ∧ Reads before l.text after l.token) ∧
        lexemes.Pairwise (fun l m => l.stop ≤ m.start) ∧
        ∀ i c, source.toList[i]? = some c →
          (∃ l ∈ lexemes, l.start ≤ i ∧ i < l.stop) ∨ isBlank c = true) ∧
    (∀ e, tokenize source = .error e ↔ e.IsFirst source.toList) ∧
    ((∃ e, tokenize source = .error e) ↔
      ∃ before c after, source.toList = before ++ c :: after ∧ Misplaced before c) := by
  refine ⟨?_, fun e => tokenize_eq_error_iff, ?_, ?_⟩
  · intro tokens accepted
    obtain ⟨ls, scan, -, rfl⟩ := scan_of_tokenize accepted
    refine ⟨scan.positions, ls, rfl, ?_, scan.apart, fun i c stands => ?_⟩
    · intro l membership
      obtain ⟨before, after, whole, reads, -⟩ := scan.reads l membership
      exact ⟨reads.lexed.kind_ne_eof, before, after, whole, reads⟩
    · exact scan.covers stands (Nat.zero_le i)
  · rintro ⟨e, refused⟩
    obtain ⟨before, after, whole, -, misplaced, -⟩ := tokenize_eq_error_iff.1 refused
    exact ⟨before, _, after, whole, misplaced⟩
  · rintro ⟨before, c, after, whole, misplaced⟩
    cases outcome : tokenize source with
    | error e => exact ⟨e, rfl⟩
    | ok tokens =>
      obtain ⟨ls, -, placed, -⟩ := scan_of_tokenize outcome
      exact absurd misplaced (placed before c after whole)

/-- A text with a number, a name and a bracket has a token for each, and one whose number has two
separators is refused at the second. -/
theorem tokenize_lossless_two_separators :
    (∃ tokens, tokenize "3,5 sin(" = .ok tokens ∧
      tokens.map Token.position = [0, 4, 7, 9] ∧
      tokens.Pairwise (fun t u => t.position < u.position)) ∧
    LexError.IsFirst ⟨',', 3⟩ "1.5,2".toList := by
  have accepted : tokenize "3,5 sin(" =
      .ok [.number 0 (ofDigits ['3'] ['5']), .text 4 "sin", .opening 7 '(', .eof 9] := by
    decide +kernel
  have refused : tokenize "1.5,2" = .error ⟨',', 3⟩ := by decide +kernel
  exact ⟨⟨_, accepted, rfl, ((tokenize_lossless "3,5 sin(").1 _ accepted).1⟩,
    ((tokenize_lossless "1.5,2").2.1 _).1 refused⟩

end Formulae
