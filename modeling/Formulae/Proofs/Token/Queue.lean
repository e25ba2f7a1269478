import Formulae.Token.Queue
import Mathlib.Data.List.Basic
import Mathlib.Data.Stream.Init

/-!
# Streams as queues and as endless lists

The tokens that are still to be read can be kept in three ways.

* A stream, which keeps its final token apart.
* A queue, which holds the final token as any other.  A use of a queue can break off.  Only a queue that
  always has a front is safe.
* An endless list, which has a head and a tail at all times.

A stream shows itself as a queue by `toList` and as an endless list by `endless`.  `handle_queue` and
`handle_endless` say for each use that it makes no difference which of the three is used, and
`run_of_view` takes this from one use to any number of them.  The final token is there at the end of
every run because no use touches it (`final_of_run`).
-/

namespace Formulae

/-! ## Uses -/

/-- A use of the tokens that are still to be read. -/
inductive Use where
  /-- Asks for the next token. -/
  | peek
  /-- Asks for the next token and takes it away. -/
  | next
  /-- Puts tokens in front, in their order. -/
  | prepend (tokens : List Token)

/-- What each use does to tokens that are kept as `σ`: a token as its answer, if it asks for one, and
what is left.  A use may also break off. -/
abbrev Handler (σ : Type) := Use → σ → Option (Option Token × σ)

/-- The answers to uses one after the other, and what is left. -/
def Handler.run {σ : Type} (handler : Handler σ) : List Use → σ → Option (List (Option Token) × σ)
  | [], s => some ([], s)
  | use :: uses, s => do
    let (answer, s) ← handler use s
    let (answers, s) ← handler.run uses s
    some (answer :: answers, s)

/-- If each use does the same to a view as to what is viewed, then so do all of them. -/
theorem Handler.run_of_view {σ τ : Type} {handler : Handler σ} {handler' : Handler τ} {view : σ → τ}
    (each : ∀ use s, handler' use (view s) = (handler use s).map (Prod.map id view))
    (uses : List Use) (s : σ) :
    handler'.run uses (view s) = (handler.run uses s).map (Prod.map id view) := by
  induction uses generalizing s with
  | nil => rfl
  | cons use uses induction =>
    rw [run, run, each]
    cases handler use s with
    | none => rfl
    | some result =>
      obtain ⟨answer, s'⟩ := result
      change (handler'.run uses (view s') >>= _) = _
      rw [induction]
      change _ = (handler.run uses s' >>= _).map _
      cases handler.run uses s' <;> rfl

/-- The uses of a queue. -/
def Queue.handle : Handler Queue
  | .peek, q => do
    let t ← q.peek?
    some (some t, q)
  | .next, q => do
    let (t, q) ← q.next?
    some (some t, q)
  | .prepend tokens, q => some (none, q.prepend tokens)

namespace Stream

/-- The uses of a stream, none of which breaks off. -/
def handle : Handler Stream
  | .peek, s => some (some s.peek, s)
  | .next, s => some (some s.peek, s.next)
  | .prepend tokens, s => some (none, s.prepend tokens)

variable (s : Stream)

theorem peek?_toList : Queue.peek? s.toList = some s.peek := by
  cases shape : s.front <;> simp [Queue.peek?, toList, peek, shape]

theorem next?_toList : Queue.next? s.toList = some (s.peek, s.next.toList) := by
  cases shape : s.front <;> simp [Queue.next?, toList, peek, next, shape]

theorem prepend_toList (tokens : List Token) :
    Queue.prepend s.toList tokens = (s.prepend tokens).toList := by
  rw [toList_prepend, Queue.prepend, List.foldr_cons_eq_append']

theorem handle_queue (use : Use) :
    Queue.handle use s.toList = (handle use s).map (Prod.map id toList) := by
  cases use with
  | peek => rw [Queue.handle, peek?_toList]; rfl
  | next => rw [Queue.handle, next?_toList]; rfl
  | prepend tokens => rw [Queue.handle, prepend_toList]; rfl

/-! ## Endless lists -/

/-- The tokens, followed by the final one for ever. -/
def endless : Stream' Token := s.front ++ₛ Stream'.const s.final

/-- The uses of an endless list. -/
def handleEndless : Handler (Stream' Token)
  | .peek, e => some (some e.head, e)
  | .next, e => some (some e.head, e.tail)
  | .prepend tokens, e => some (none, tokens ++ₛ e)

theorem head_endless : s.endless.head = s.peek := by
  cases shape : s.front <;> simp [endless, peek, shape]

theorem tail_endless : s.endless.tail = s.next.endless := by
  obtain ⟨front, final, _⟩ := s
  cases front with
  | nil => exact Stream'.tail_const final
  | cons => rfl

theorem append_endless (tokens : List Token) : tokens ++ₛ s.endless = (s.prepend tokens).endless :=
  (Stream'.append_append_stream tokens s.front _).symm

theorem handle_endless (use : Use) :
    handleEndless use s.endless = (handle use s).map (Prod.map id endless) := by
  cases use with
  | peek => rw [handleEndless, head_endless]; rfl
  | next => rw [handleEndless, head_endless, tail_endless]; rfl
  | prepend tokens => rw [handleEndless, append_endless]; rfl

/-! ## The stream of a list -/

/-- The token that ends a list for ever: its own last one if this is an end of the input. -/
def finalOf (tokens : List Token) : Token :=
  match tokens.getLast? with
  | some last => if last.kind = .eof then last else Token.eof (last.position + 1)
  | none => Token.eof 0

variable (tokens : List Token)

theorem final_ofList : (ofList tokens).final = finalOf tokens := by
  rcases List.eq_nil_or_concat' tokens with rfl | ⟨front, last, rfl⟩
  · rfl
  · by_cases ends : last.kind = .eof <;> simp [ofList, finalOf, ends]

theorem toList_ofList : (ofList tokens).toList = Queue.ofList tokens := by
  rcases List.eq_nil_or_concat' tokens with rfl | ⟨front, last, rfl⟩
  · rfl
  · by_cases ends : last.kind = .eof <;> simp [ofList, toList, Queue.ofList, ends]

/-- An end of the input that the list has already is the first of those that follow for ever. -/
theorem endless_ofList : (ofList tokens).endless = tokens ++ₛ Stream'.const (finalOf tokens) := by
  rcases List.eq_nil_or_concat' tokens with rfl | ⟨front, last, rfl⟩
  · rfl
  · by_cases ends : last.kind = .eof
    · simp only [ofList, finalOf, endless, ends, List.getLast?_concat, List.dropLast_concat,
        dite_true, if_true, Stream'.append_append_stream]
      exact congrArg (front ++ₛ ·) (Stream'.const_eq last)
    · simp [ofList, finalOf, endless, ends]

/-! ## Runs -/

variable {s}

/-- A stream can be used in any way, and keeps its final token. -/
theorem final_of_run (uses : List Use) :
    ∃ answers s', handle.run uses s = some (answers, s') ∧ s'.final = s.final := by
  induction uses generalizing s with
  | nil => exact ⟨[], s, rfl, rfl⟩
  | cons use uses induction =>
    obtain ⟨answer, mid, handled, kept⟩ :
        ∃ answer mid, handle use s = some (answer, mid) ∧ mid.final = s.final := by
      cases use <;> exact ⟨_, _, rfl, rfl⟩
    obtain ⟨answers, s', runs, keptLater⟩ := induction (s := mid)
    refine ⟨answer :: answers, s', ?_, keptLater.trans kept⟩
    simp [Handler.run, handled, runs]

/-- However a stream is used, it answers as the endless list of its tokens, and as the queue of its
tokens, which never breaks off.  The queue never runs empty, and it ends in the end of the input that
it was made with. -/
theorem run_as_endless_list (uses : List Use) :
    ∃ answers s', handle.run uses (ofList tokens) = some (answers, s') ∧
      handleEndless.run uses (tokens ++ₛ Stream'.const (finalOf tokens)) =
        some (answers, s'.endless) ∧
      Queue.handle.run uses (Queue.ofList tokens) = some (answers, s'.toList) ∧
      s'.isEmpty = false ∧ s'.toList.getLast? = some (finalOf tokens) ∧
      (finalOf tokens).kind = .eof := by
  obtain ⟨answers, s', runs, kept⟩ := final_of_run (s := ofList tokens) uses
  rw [final_ofList] at kept
  refine ⟨answers, s', runs, ?_, ?_, ?_, ?_, kept ▸ s'.final_kind⟩
  · rw [← endless_ofList, Handler.run_of_view fun use s => handle_endless s use, runs]
    rfl
  · rw [← toList_ofList, Handler.run_of_view fun use s => handle_queue s use, runs]
    rfl
  · rfl
  · rw [toList, List.getLast?_concat, kept]

/-- At the end of the input, an end of the input and a number are put back. -/
example :
    handle.run [.next, .next, .prepend [Token.eof 9, Token.number 3 1], .next, .next, .next, .next]
        (ofList [Token.number 0 7]) =
      some ([some (Token.number 0 7), some (Token.eof 1), none, some (Token.eof 9),
        some (Token.number 3 1), some (Token.eof 1), some (Token.eof 1)],
        ofList [Token.eof 1]) := by
  rfl

end Stream

end Formulae
