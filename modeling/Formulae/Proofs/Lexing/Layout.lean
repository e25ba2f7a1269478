import Formulae.Proofs.Lexing.Lossless
import Mathlib.Data.List.Forall2

/-!
# Texts that are laid out differently

`Relaid before cs cs'` says that the rest `cs` of a text, which consists of lexemes and of blanks,
is laid out differently in `cs'`: there are more blanks, at any place that is not inside a lexeme,
and any separator may be replaced by the other one.

Both texts have the same tokens up to their positions (`tokensFrom_of_relaid`).  A lexeme is read
by itself, with no regard to what stands before it, and of what stands behind it only the class of
the first character counts (`Reads.tokensFrom_eq`).  A new layout does not bring in a class there,
because blanks have none of those that go on with a number or a text (`Relaid.startsWith`).
-/

namespace Formulae

open Formulae.Text (isDigit isLetter isSeparator isOpening isClosing isBlank)
open Formulae.Decimal (ofDigits)

/-! ## Reading one lexeme -/

/-- The token at another place. -/
def Token.placed (t : Token) (position : Nat) : Token := { t with position }

section

variable {position : Nat} {before text after cs : List Char} {c : Char} {t : Token}

/-- A lexeme in front of a text is its first token, at whatever position it stands. -/
theorem Reads.tokensFrom_eq (reads : Reads before text after t) (position : Nat) :
    tokensFrom position (text ++ after) =
      (tokensFrom (position + text.length) after).map (t.placed position :: ·) := by
  cases reads with
  | whole nonempty digits _ stops bare =>
    rw [tokensFrom_whole nonempty digits (not_startsWith_iff.1 stops) (not_startsWith_iff.1 bare)]
    simp [ofDigits, Token.placed, Token.number]
  | separated nonempty digits separator fractionDigits _ stops =>
    exact tokensFrom_separated nonempty digits separator fractionDigits (not_startsWith_iff.1 stops)
  | letters nonempty letters _ stops =>
    exact tokensFrom_run nonempty letters (not_startsWith_iff.1 stops)
  | operator operator => exact tokensFrom_symbol (symbol?_operator position operator)
  | opening opening => exact tokensFrom_symbol (symbol?_opening position opening)
  | closing closing => exact tokensFrom_symbol (symbol?_closing position closing)

end

/-! ## Other separators -/

/-- The characters are the same, or both separate the fraction of a number. -/
def Alike (c d : Char) : Prop := c = d ∨ (isSeparator c = true ∧ isSeparator d = true)

section

variable {c d : Char} {cs ds : List Char}

theorem Alike.eq (alike : Alike c d) (notSeparator : isSeparator c = false) : c = d := by
  rcases alike with same | ⟨separator, -⟩
  · exact same
  · simp [notSeparator] at separator

theorem Alike.isSeparator_eq (alike : Alike c d) : isSeparator d = isSeparator c := by
  rcases alike with rfl | ⟨first, second⟩
  · rfl
  · rw [first, second]

theorem Alike.isDigit_eq (alike : Alike c d) : isDigit d = isDigit c := by
  rcases alike with rfl | ⟨first, second⟩
  · rfl
  · rw [(of_isSeparator 0 first).1, (of_isSeparator 0 second).1]

theorem Alike.isLetter_eq (alike : Alike c d) : isLetter d = isLetter c := by
  rcases alike with rfl | ⟨first, second⟩
  · rfl
  · rw [(of_isSeparator 0 first).2.1, (of_isSeparator 0 second).2.1]

theorem forall₂_alike_refl (cs : List Char) : List.Forall₂ Alike cs cs :=
  List.forall₂_same.2 fun _ _ => .inl rfl

/-- Without separators there is nothing to replace. -/
theorem eq_of_alike (alike : List.Forall₂ Alike cs ds)
    (bare : ∀ c ∈ cs, isSeparator c = false) : ds = cs := by
  induction alike with
  | nil => rfl
  | cons first _ induction =>
    obtain ⟨notSeparator, others⟩ := List.forall_mem_cons.1 bare
    rw [← first.eq notSeparator, induction others]

theorem eq_of_alike_digits (alike : List.Forall₂ Alike cs ds)
    (digits : ∀ c ∈ cs, isDigit c = true) : ds = cs :=
  eq_of_alike alike fun c member => isSeparator_eq_false_of_isDigit (digits c member)

/-- What is alike an append is one. -/
theorem alike_append {es : List Char} (alike : List.Forall₂ Alike (cs ++ ds) es) :
    ∃ cs' ds', es = cs' ++ ds' ∧ List.Forall₂ Alike cs cs' ∧ List.Forall₂ Alike ds ds' := by
  have first := List.forall₂_take cs.length alike
  have second := List.forall₂_drop cs.length alike
  rw [List.take_left] at first
  rw [List.drop_left] at second
  exact ⟨_, _, (List.take_append_drop cs.length es).symm, first, second⟩

theorem eq_of_alike_symbol {position : Nat} {t : Token} (symbol : symbol? position c = some t)
    (alike : List.Forall₂ Alike [c] ds) : ds = [c] :=
  eq_of_alike alike (by simp [of_symbol? symbol])

end

/-! ## Other layouts -/

/-- The second text is the rest of a text with more blanks between its lexemes and with other
separators. -/
inductive Relaid : List Char → List Char → List Char → Prop where
  | done {before : List Char} : Relaid before [] []
  | inserted {before cs cs' : List Char} {c : Char} :
      isBlank c = true → Relaid before cs cs' → Relaid before cs (c :: cs')
  | blank {before cs cs' : List Char} {c : Char} :
      isBlank c = true → Relaid (before ++ [c]) cs cs' → Relaid before (c :: cs) (c :: cs')
  | lexeme {before text after text' after' : List Char} {t : Token} :
      Reads before text after t → List.Forall₂ Alike text text' →
      Relaid (before ++ text) after after' → Relaid before (text ++ after) (text' ++ after')

section

variable {before text after text' after' cs cs' : List Char} {ls : List Lexeme} {t : Token}

/-- A text is one of its own layouts. -/
theorem Scan.relaid (scan : Scan before cs ls) : Relaid before cs cs := by
  induction scan with
  | done => exact .done
  | blank blank _ induction => exact .blank blank induction
  | lexeme reads _ induction => exact .lexeme reads (forall₂_alike_refl _) induction

/-- Another layout begins like the text or with a blank. -/
theorem Relaid.startsWith {p : Char → Bool} (relaid : Relaid before cs cs')
    (blanks : ∀ c, isBlank c = true → p c = false) (alikes : ∀ c d, Alike c d → p d = p c)
    (starts : StartsWith p cs') : StartsWith p cs := by
  cases relaid with
  | done => exact starts
  | inserted blank | blank blank => simp [blanks _ blank] at starts
  | lexeme reads alike =>
    cases alike with
    | nil => exact absurd rfl reads.text_ne_nil
    | cons first =>
      rw [List.cons_append, startsWith_cons] at starts ⊢
      rwa [← alikes _ _ first]

/-- A lexeme in another layout is read as the same token.  It is stated for the front of a text,
since reading does not look back (`Reads.tokensFrom_eq`). -/
theorem Reads.relaid (reads : Reads before text after t) (alike : List.Forall₂ Alike text text')
    (rest : Relaid (before ++ text) after after') : Reads [] text' after' (t.placed 0) := by
  have digit : StartsWith isDigit after' → StartsWith isDigit after :=
    rest.startsWith (fun _ blank => (of_isBlank 0 blank).1) fun _ _ alike => alike.isDigit_eq
  have letter : StartsWith isLetter after' → StartsWith isLetter after :=
    rest.startsWith (fun _ blank => (of_isBlank 0 blank).2.1) fun _ _ alike => alike.isLetter_eq
  have separator : StartsWith isSeparator after' → StartsWith isSeparator after :=
    rest.startsWith (fun _ blank => (of_isBlank 0 blank).2.2.1) fun _ _ alike =>
      alike.isSeparator_eq
  cases reads with
  | whole nonempty digits _ stops bare =>
    obtain rfl := eq_of_alike_digits alike digits
    exact .whole nonempty digits not_endsWith_nil (mt digit stops) (mt separator bare)
  | separated nonempty digits separates fraction _ stops =>
    obtain ⟨digits', others, rfl, alikeDigits, alikeOthers⟩ := alike_append alike
    obtain rfl := eq_of_alike_digits alikeDigits digits
    cases alikeOthers with
    | cons first alikeFraction =>
      obtain rfl := eq_of_alike_digits alikeFraction fraction
      exact .separated nonempty digits (first.isSeparator_eq.trans separates) fraction
        not_endsWith_nil (mt digit stops)
  | letters nonempty letters _ stops =>
    obtain rfl := eq_of_alike alike fun c member =>
      isSeparator_eq_false_of_isLetter (letters c member)
    exact .letters nonempty letters not_endsWith_nil (mt letter stops)
  | operator operator =>
    obtain rfl := eq_of_alike_symbol (symbol?_operator 0 operator) alike
    exact .operator operator
  | opening opening =>
    obtain rfl := eq_of_alike_symbol (symbol?_opening 0 opening) alike
    exact .opening opening
  | closing closing =>
    obtain rfl := eq_of_alike_symbol (symbol?_closing 0 closing) alike
    exact .closing closing

/-- The token means the same at another place. -/
structure Token.Moved (t t' : Token) : Prop where
  kind_eq : t'.kind = t.kind
  payload_eq : t'.payload = t.payload

/-- A text in another layout has the same tokens at other positions.  The positions in the two
texts drift apart with every blank, so the induction is over any two of them. -/
theorem tokensFrom_of_relaid (relaid : Relaid before cs cs') :
    ∀ position position', ∃ ts ts', tokensFrom position cs = .ok ts ∧
      tokensFrom position' cs' = .ok ts' ∧ List.Forall₂ Token.Moved ts ts' := by
  induction relaid with
  | done =>
    intro position position'
    rw [tokensFrom_nil, tokensFrom_nil]
    exact ⟨_, _, rfl, rfl, .cons ⟨rfl, rfl⟩ .nil⟩
  | inserted blank _ induction =>
    intro position position'
    rw [tokensFrom_blank blank]
    exact induction position (position' + 1)
  | blank blank _ induction =>
    intro position position'
    rw [tokensFrom_blank blank, tokensFrom_blank blank]
    exact induction (position + 1) (position' + 1)
  | @lexeme before text after text' after' t reads alike rest induction =>
    intro position position'
    obtain ⟨ts, ts', accepted, accepted', moved⟩ :=
      induction (position + text.length) (position' + text'.length)
    rw [reads.tokensFrom_eq, (reads.relaid alike rest).tokensFrom_eq, accepted, accepted']
    exact ⟨_, _, rfl, rfl, .cons ⟨rfl, rfl⟩ moved⟩

end

end Formulae
