import Formulae.Token.Basic

/-!
# Token streams

A stream is the list of the tokens that are still to be read, followed without end by a final
token of kind `eof`.  So there is always a next token: `next` drops the front of the list, and
once the list is used up it changes nothing.  `prepend` puts tokens back in front.

`toList` shows the final token once, and `length` counts it.
-/

namespace Formulae

/-- Tokens to read, and the end of the input that follows them for ever. -/
structure Stream where
  /-- The tokens before the final one. -/
  front : List Token
  /-- The token that is read when the front is used up. -/
  final : Token
  /-- The final token is the end of the input. -/
  final_kind : final.kind = .eof

namespace Stream

/-- The stream of a list.  A list that does not end in `eof` gets one, right after its last
position. -/
def ofList (tokens : List Token) : Stream :=
  match tokens.getLast? with
  | some last =>
    if h : last.kind = .eof then ⟨tokens.dropLast, last, h⟩
    else ⟨tokens, Token.eof (last.position + 1), rfl⟩
  | none => ⟨[], Token.eof 0, rfl⟩

/-- The next token, which stays in the stream. -/
def peek (s : Stream) : Token := s.front.headD s.final

/-- The stream after its next token. -/
def next (s : Stream) : Stream := { s with front := s.front.tail }

/-- The stream with tokens put in front, in their order. -/
def prepend (s : Stream) (tokens : List Token) : Stream := { s with front := tokens ++ s.front }

/-- The tokens with the final one. -/
def toList (s : Stream) : List Token := s.front ++ [s.final]

/-- The number of tokens with the final one. -/
def length (s : Stream) : Nat := s.front.length + 1

/-- Whether there is no token, which is never so. -/
def isEmpty (s : Stream) : Bool := s.length == 0

/-- The kinds of the tokens. -/
def kinds (s : Stream) : List Kind := s.toList.map Token.kind

/-! ## The view as a list -/

@[simp] theorem toList_prepend (s : Stream) (tokens : List Token) :
    (s.prepend tokens).toList = tokens ++ s.toList := by
  simp [prepend, toList]

end Stream

end Formulae
