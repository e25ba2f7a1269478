import Formulae.Parser.Basic
import Formulae.Proofs.Lexing.Lossless
import Formulae.Proofs.Token.Queue

/-!
# Positions in bounds

A parser computes two positions: that of a letter that is split off a text, and that of an end of the input
that the list of tokens lacks.  `PositionsFit` says of a list that both are always in bounds.  This is so if
every token ends in bounds (`PositionsFit.of_weight`), and in particular if the tokens are those of a text
that is not too long (`PositionsFit.of_tokenize`).

`Queue.make?_cases` says what becomes of the queue of a list.  An unchecked build makes a queue in any case,
but its end of the input may stand elsewhere.
-/

namespace Formulae

/-! ## Tokens and streams -/

/-- If a letter is split off the token, then its position is in bounds. -/
def Token.Fits (t : Token) : Prop :=
  t.kind = .text → ∀ f offset letter, Word.read t.letters = .glued f offset letter →
    t.position + offset < positionBound

/-- A token is in bounds if the end of its letters is. -/
theorem Token.fits_of_weight {t : Token} (room : t.position + t.weight < positionBound) : t.Fits := by
  intro _ f offset letter reading
  have inside := (Word.offset_of_read_glued reading).2
  have whole : t.weight = 1 + t.letters.toList.length := rfl
  omega

/-- Nothing is split off a single letter. -/
theorem Token.fits_singleton (position : Nat) (letter : Char) :
    (Token.text position (String.singleton letter)).Fits := by
  intro _ f offset letter' reading
  have inside := Word.offset_of_read_glued reading
  have single : (Token.text position (String.singleton letter)).letters.toList.length = 1 := by
    simp [Token.letters, Token.text, Token.letters?]
  omega

/-- Letters are split off the tokens in bounds. -/
def Stream.Fits (s : Stream) : Prop := ∀ t ∈ s.front, t.Fits

namespace Stream

variable {s : Stream}

theorem Fits.peek (fits : s.Fits) : s.peek.Fits := by
  cases shape : s.front with
  | nil =>
    intro text
    have last : s.peek.kind = .eof := by simp [Stream.peek, shape, s.final_kind]
    rw [last] at text
    cases text
  | cons t ts =>
    have first : s.peek = t := by simp [Stream.peek, shape]
    exact first ▸ fits t (by simp [shape])

theorem Fits.next (fits : s.Fits) : s.next.Fits :=
  fun t membership => fits t (List.mem_of_mem_tail membership)

theorem Fits.start (fits : s.Fits) (consumes : Bool) : (if consumes then s.next else s).Fits := by
  cases consumes with
  | false => exact fits
  | true => exact fits.next

theorem Fits.prepend (fits : s.Fits) {t : Token} (first : t.Fits) : (s.prepend [t]).Fits := by
  intro u membership
  rcases List.mem_cons.1 membership with rfl | later
  · exact first
  · exact fits u later

theorem mem_of_mem_front_ofList {tokens : List Token} {t : Token}
    (membership : t ∈ (ofList tokens).front) : t ∈ tokens := by
  rcases List.eq_nil_or_concat' tokens with rfl | ⟨front, last, rfl⟩
  · cases membership
  · by_cases ends : last.kind = .eof
    · exact List.mem_append_left _ (by simpa [ofList, ends] using membership)
    · simpa [ofList, ends] using membership

theorem fits_ofList {tokens : List Token} (fit : ∀ t ∈ tokens, t.Fits) : (ofList tokens).Fits :=
  fun t membership => fit t (mem_of_mem_front_ofList membership)

end Stream

/-! ## Lists of tokens -/

/-- The positions that are computed for a list of tokens are in bounds. -/
structure PositionsFit (tokens : List Token) : Prop where
  /-- Letters are split off in bounds. -/
  letters : ∀ t ∈ tokens, t.Fits
  /-- Behind the last token there is room for an end of the input, if it is missing. -/
  ending : ∀ last ∈ tokens.getLast?, last.kind ≠ .eof → last.position + 1 < positionBound

/-- It is enough that all tokens end in bounds. -/
theorem PositionsFit.of_weight {tokens : List Token}
    (room : ∀ t ∈ tokens, t.position + t.weight < positionBound) : PositionsFit tokens where
  letters t membership := Token.fits_of_weight (room t membership)
  ending last isLast _ := by
    have := room last (List.mem_of_getLast? isLast)
    have := last.weight_pos
    omega

/-- A token takes up no more room than the part of a text that it is read from, and one position. -/
theorem Reads.position_add_weight_le {before text after : List Char} {t : Token}
    (reads : Reads before text after t) : t.position + t.weight ≤ (before ++ text).length + 1 := by
  cases reads with
  | letters => simp [Token.weight, Token.text, Token.letters?, Nat.add_assoc, Nat.add_comm 1]
  | whole | separated | operator | opening | closing =>
    simp [Token.weight, Token.letters?, Token.number, Token.bare, Token.opening, Token.closing]

/-- The positions for the tokens of a text fit if the text is short enough for them. -/
theorem PositionsFit.of_tokenize {source : String} {tokens : List Token}
    (accepted : tokenize source = .ok tokens) (short : source.toList.length + 2 < positionBound) :
    PositionsFit tokens := by
  obtain ⟨ls, scan, -, rfl⟩ := scan_of_tokenize accepted
  refine .of_weight fun t membership => ?_
  rcases List.mem_append.1 membership with inside | ending
  · obtain ⟨l, lexeme, rfl⟩ := List.mem_map.1 inside
    obtain ⟨front, after, whole, reads, -⟩ := scan.reads l lexeme
    have room := reads.position_add_weight_le
    have lengths := congrArg List.length whole
    simp only [List.length_append, List.length_nil] at room lengths
    omega
  · rw [List.mem_singleton.1 ending]
    exact short

/-- A build makes the queue of a stream.  If there is room behind the last token, then this is the
stream of the list.  Otherwise a checked build may break off. -/
theorem Queue.make?_cases (build : Build) (tokens : List Token) :
    (∃ s : Stream, Queue.make? build tokens = some s.toList ∧
      (PositionsFit tokens → s = Stream.ofList tokens)) ∨
    build = .checked ∧ ¬ PositionsFit tokens ∧ Queue.make? build tokens = none := by
  rcases List.eq_nil_or_concat' tokens with rfl | ⟨front, last, rfl⟩
  · exact .inl ⟨Stream.ofList [], rfl, fun _ => rfl⟩
  by_cases ends : last.kind = .eof
  · refine .inl ⟨Stream.ofList (front ++ [last]), ?_, fun _ => rfl⟩
    rw [Stream.toList_ofList]
    simp [Queue.make?, Queue.ofList, ends]
  obtain ⟨position, given, exact⟩ | ⟨checked, large, missing⟩ :=
    build.advance?_cases last.position 1
  · refine .inl ⟨⟨front ++ [last], Token.eof position, rfl⟩, ?_, fun fit => ?_⟩
    · simp [Queue.make?, ends, given, Stream.toList]
    · rw [exact (fit.ending last (by simp) ends)]
      simp [Stream.ofList, ends]
  · refine .inr ⟨checked, fun fit => ?_, ?_⟩
    · have := fit.ending last (by simp) ends
      omega
    · simp [Queue.make?, ends, missing]

end Formulae
