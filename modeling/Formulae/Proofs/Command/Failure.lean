import Formulae.Command.Printing
import Formulae.Proofs.Formula.Dependence
import Formulae.Proofs.Formula.Renaming
import Formulae.Proofs.Sampling.Routes

/-!
# How a command fails

`Command.perform` prints each line as soon as it has it, and so it might fail behind a line that stays
printed.  But its outcome is that of `Command.texts`, which has all the texts of a command or none
(`performed_eq_run`), because every step that can fail comes before the first line.

`Command.Fails` lists the causes of failure without running the command (`fails_iff`).

* The text spells no formula.
* The formula has more variables than there is room for.
* The round trip of a derivative through text fails.  Its canonical text cannot be read, or that of what
  it reduces to, because one of them is too deep (`exists_roundTripFails_iff`).

Samples are no cause.  A program of one variable can be built, and it accepts every range
(`sampled_eq`).
-/

namespace Formulae

/-! ## Lines -/

@[simp] theorem lines_nil : lines [] = "" := rfl

@[simp] theorem lines_cons (l : String) (ls : List String) : lines (l :: ls) = l ++ "\n" ++ lines ls := by
  rw [lines, List.map_cons, String.join_cons, lines]

/-! ## Steps of printing -/

namespace Printing

variable {α β : Type} {t : Transcript} {work : α → Printing β}

/-- A step that prints nothing fails with what was printed before it. -/
theorem behind_step (step : Except FormulaError α) :
    behind t (liftM step >>= work) =
      match step with
      | .ok a => behind t (work a)
      | .error error => (.error error, t) := by
  cases step <;> rfl

theorem behind_line {text : String} {work : Unit → Printing β} :
    behind t (line text >>= work) =
      behind { t with output := t.output ++ text ++ "\n" } (work ()) := rfl

theorem behind_last_line {text : String} :
    behind t (line text) = (.ok (), { t with output := t.output ++ text ++ "\n" }) := rfl

theorem behind_message {text : String} {work : Unit → Printing β} :
    behind t (message text >>= work) =
      behind { t with messages := t.messages ++ text ++ "\n" } (work ()) := rfl

theorem behind_last_message {text : String} :
    behind t (message text) = (.ok (), { t with messages := t.messages ++ text ++ "\n" }) := rfl

theorem behind_forM_line {texts : List String} {work : Unit → Printing β} :
    behind t (forM texts line >>= work) =
      behind { t with output := t.output ++ lines texts } (work ()) := by
  induction texts generalizing t with
  | nil =>
    rw [lines_nil, String.append_empty]
    rfl
  | cons text texts induction =>
    rw [List.forM_cons, bind_assoc, behind_line, induction, lines_cons]
    simp only [String.append_assoc]

end Printing

open Printing

namespace Command

/-! ## All texts or none -/

section

variable {t : Transcript} {error : FormulaError}

/-- What a performed command leaves behind, if its texts are these. -/
def printed (t : Transcript) :
    Except FormulaError (String × String) → Except FormulaError Unit × Transcript
  | .ok (output, messages) => (.ok (), ⟨t.output ++ output, t.messages ++ messages⟩)
  | .error error => (.error error, t)

theorem behind_inspect (formula : String) :
    behind t (inspect formula).perform = printed t (inspect formula).texts := by
  rw [perform, behind_step, texts]
  cases Formula.read formula with
  | error error => rfl
  | ok f =>
    rw [ok_bind]
    simp [inspection, behind_line, behind_last_line, printed, String.append_assoc]

theorem behind_eval (formula : String) (values : List (String × Float)) :
    behind t (eval formula values).perform = printed t (eval formula values).texts := by
  rw [perform, behind_step, texts]
  cases Formula.read formula with
  | error error => rfl
  | ok f =>
    rw [ok_bind]
    simp [behind_last_line, printed, String.append_assoc]

theorem behind_printDerivative (slope : Except FormulaError Expr) :
    behind t (liftM slope >>= printDerivative) =
      printed t (slope >>= fun e => .ok (derivation e, "")) := by
  rw [behind_step]
  cases slope with
  | error error => rfl
  | ok e =>
    rw [ok_bind]
    simp [printDerivative, derivation, behind_line, behind_last_line, printed, String.append_assoc]

theorem behind_derive (formula : String) (byVariable : Option String) (implicit : Bool) :
    behind t (derive formula byVariable implicit).perform =
      printed t (derive formula byVariable implicit).texts := by
  rw [texts, derived]
  cases implicit with
  | true =>
    rw [perform, if_pos rfl, if_pos rfl, behind_step]
    cases Formula.readFor .implicit formula with
    | error error => rfl
    | ok f => exact behind_printDerivative (f.tree.implicitSlope .algebraic)
  | false =>
    rw [perform, if_neg Bool.false_ne_true, if_neg Bool.false_ne_true, behind_step]
    cases Formula.read formula with
    | error error => rfl
    | ok f =>
      cases byVariable with
      | some v => exact behind_printDerivative (f.tree.slopeBy .algebraic v)
      | none => exact behind_printDerivative (f.tree.slope .algebraic)

theorem behind_printSamples (f : Formula) (range : Range) (samples : List Sample) :
    behind t (printSamples f range samples) =
      printed t (.ok (lines (samples.map fun s => Decimal.plain s.1 ++ "," ++ Decimal.plain s.2),
        sampleMessages f range samples)) := by
  rw [printSamples, behind_forM_line, sampleMessages]
  cases Summary.ofSamples samples with
  | none => simp [behind_last_message, printed, String.append_assoc]
  | some summary => simp [behind_message, behind_last_message, printed, String.append_assoc]

theorem behind_sample (formula : String) (range : Range) (compiled : Bool) :
    behind t (sample formula range compiled).perform =
      printed t (sample formula range compiled).texts := by
  rw [perform, texts, behind_step]
  cases Formula.readFor .explicit formula with
  | error error => rfl
  | ok f =>
    dsimp only
    rw [ok_bind, sampled]
    cases compiled with
    | false => exact behind_printSamples f range (f.tree.samples range)
    | true =>
      rw [if_pos rfl, if_pos rfl, behind_step]
      cases f.build with
      | error error => rfl
      | ok c =>
        dsimp only
        rw [behind_step, ok_bind]
        cases c.sample range .growing with
        | error error => rfl
        | ok ys => exact behind_printSamples f range (range.points.zip ys)

/-- A command prints all its texts, or it prints nothing and fails. -/
theorem behind_perform (c : Command) : behind t c.perform = printed t c.texts := by
  cases c with
  | inspect formula => exact behind_inspect formula
  | eval formula values => exact behind_eval formula values
  | derive formula byVariable implicit => exact behind_derive formula byVariable implicit
  | sample formula range compiled => exact behind_sample formula range compiled

theorem performed_eq_run (c : Command) : c.performed = c.run := by
  rw [performed, behind_perform, run]
  cases c.texts with
  | error error => simp [printed, Outcome.failure]
  | ok both =>
    obtain ⟨output, messages⟩ := both
    simp [printed, Outcome.success]

end

end Command

/-! ## Round trips -/

namespace Expr

variable {e : Expr} {error : FormulaError}

/-- How the round trip of an expression through text can fail. -/
inductive RoundTripFails (e : Expr) : FormulaError → Prop where
  /-- The canonical text cannot be read. -/
  | unread {cause : ParseError} :
      parse e.canonical = .error cause → RoundTripFails e (.simplifier cause.message)
  /-- The canonical text of the reduced expression cannot be read. -/
  | unreadReduced {e' : Expr} {cause : ParseError} :
      parse e.canonical = .ok e' → parse (e'.reduce .machine).canonical = .error cause →
        RoundTripFails e (.parse cause)

theorem roundTripFails_iff : e.RoundTripFails error ↔ e.simplify .algebraic = .error error := by
  constructor
  · intro fails
    cases fails with
    | unread refused => simp [simplify, Simplifier.algebraic, refused]
    | unreadReduced accepted refused => simp [simplify, Simplifier.algebraic, accepted, refused]
  · intro failed
    cases first : parse e.canonical with
    | error cause =>
      simp only [simplify, Simplifier.algebraic, first, Except.error.injEq] at failed
      exact failed ▸ .unread first
    | ok e' =>
      cases second : parse (e'.reduce .machine).canonical with
      | error cause =>
        simp only [simplify, Simplifier.algebraic, first, second, Except.error.injEq] at failed
        exact failed ▸ .unreadReduced first second
      | ok e'' => simp [simplify, Simplifier.algebraic, first, second] at failed

theorem not_roundTripFails_iff :
    (∀ error, ¬ e.RoundTripFails error) ↔ ∃ s, e.simplify .algebraic = .ok s := by
  simp only [roundTripFails_iff]
  cases e.simplify .algebraic <;> simp

/-- A round trip fails if the expression is too deep, or what it reduces to. -/
theorem exists_roundTripFails_iff (named : e.Named) :
    (∃ error, e.RoundTripFails error) ↔
      512 < e.cost ∨ 512 < (e.expand.reduce .machine).cost := by
  rw [← not_iff_not, not_exists, not_roundTripFails_iff]
  simp [simplify_algebraic_eq_ok_iff named]

/-- An error is that of the first round trip to fail. -/
inductive FirstFails (error : FormulaError) : List Expr → Prop where
  /-- The first one fails. -/
  | here {e : Expr} {es : List Expr} : e.RoundTripFails error → FirstFails error (e :: es)
  /-- The first one comes back, and one after it fails. -/
  | later {e : Expr} {es : List Expr} :
      (∀ other, ¬ e.RoundTripFails other) → FirstFails error es → FirstFails error (e :: es)

theorem not_firstFails_nil : ¬ FirstFails error [] := nofun

theorem firstFails_cons_iff {es : List Expr} :
    FirstFails error (e :: es) ↔
      e.simplify .algebraic = .error error ∨
      ∃ s, e.simplify .algebraic = .ok s ∧ FirstFails error es := by
  rw [← roundTripFails_iff, exists_and_right, ← not_roundTripFails_iff]
  constructor
  · rintro (fails | ⟨returns, fails⟩)
    · exact .inl fails
    · exact .inr ⟨returns, fails⟩
  · rintro (fails | ⟨returns, fails⟩)
    · exact .here fails
    · exact .later returns fails

theorem firstFails_singleton_iff : FirstFails error [e] ↔ e.simplify .algebraic = .error error := by
  rw [firstFails_cons_iff]
  simp [not_firstFails_nil]

theorem implicitSlope_eq_error_iff :
    e.implicitSlope .algebraic = .error error ↔
      FirstFails error [e.derivative "x", e.derivative "y"] := by
  rw [firstFails_cons_iff, firstFails_singleton_iff, implicitSlope, bind_eq_error_iff]
  refine or_congr_right (exists_congr fun byX => and_congr_right fun _ => ?_)
  rw [bind_eq_error_iff]
  simp [slopeBy]

end Expr

/-! ## Why commands fail -/

namespace Formula

variable {kind? : Option CurveKind} {source : String} {f : Formula} {error : FormulaError}

/-- A formula is read for a curve if few enough names are mentioned in it. -/
theorem readFor_eq (kind : CurveKind) (source : String) :
    readFor kind source =
      match parse source with
      | .error cause => .error (.parse cause)
      | .ok e =>
        if e.mentioned.ncard ≤ kind.allowedVariables then .ok ⟨source, e, some kind⟩
        else .error (.tooManyVariables e.mentioned.ncard kind.allowedVariables
          (", ".intercalate e.variableNames)) := by
  rw [readFor, readLimited_eq]
  cases parse source with
  | error cause => rfl
  | ok e =>
    dsimp only
    split <;> rfl

/-- The formula that a text spells, for a kind of curve if there is one. -/
def readAs (kind? : Option CurveKind) (source : String) : Except FormulaError Formula :=
  match kind? with
  | some kind => readFor kind source
  | none => read source

theorem readAs_eq_ok_iff :
    readAs kind? source = .ok f ↔
      ∃ e, parse source = .ok e ∧
        (∀ kind, kind? = some kind → e.mentioned.ncard ≤ kind.allowedVariables) ∧
        f = ⟨source, e, kind?⟩ := by
  cases kind? with
  | none => simpa [readAs] using read_eq_ok_iff
  | some kind =>
    simp only [readAs, readFor_eq]
    cases parse source with
    | error cause => simp
    | ok e =>
      by_cases few : e.mentioned.ncard ≤ kind.allowedVariables
      · simp [few, eq_comm]
      · simp [few]

theorem readAs_eq_error_iff :
    readAs kind? source = .error error ↔
      (∃ cause, parse source = .error cause ∧ error = .parse cause) ∨
      ∃ e kind, parse source = .ok e ∧ kind? = some kind ∧
        kind.allowedVariables < e.mentioned.ncard ∧
        error = .tooManyVariables e.mentioned.ncard kind.allowedVariables
          (", ".intercalate e.variableNames) := by
  cases kind? with
  | none =>
    simp only [readAs, read]
    cases parse source <;> simp [eq_comm]
  | some kind =>
    simp only [readAs, readFor_eq]
    cases parse source with
    | error cause => simp [eq_comm]
    | ok e =>
      by_cases few : e.mentioned.ncard ≤ kind.allowedVariables
      · simp [few, Nat.not_lt.2 few]
      · simp [few, Nat.not_le.1 few, eq_comm]

end Formula

namespace Command

variable {c : Command} {error : FormulaError}

/-- The text of the formula. -/
def formula : Command → String
  | inspect formula | eval formula _ | derive formula _ _ | sample formula _ _ => formula

/-- The kind of curve that the formula is read for, if there is one. -/
def kind? : Command → Option CurveKind
  | derive _ _ true => some .implicit
  | sample .. => some .explicit
  | _ => none

/-- The derivatives that are simplified, in this order. -/
def derivatives (e : Expr) : Command → List Expr
  | derive _ _ true => [e.derivative "x", e.derivative "y"]
  | derive _ (some v) false => [e.derivative v]
  | derive _ none false => [e.rawSlope]
  | _ => []

/-- Why a command fails. -/
inductive Fails (c : Command) : FormulaError → Prop where
  /-- The text spells no formula. -/
  | unreadable {cause : ParseError} : parse c.formula = .error cause → Fails c (.parse cause)
  /-- The formula has more variables than there is room for. -/
  | crowded {e : Expr} {kind : CurveKind} :
      parse c.formula = .ok e → c.kind? = some kind →
      kind.allowedVariables < e.mentioned.ncard →
        Fails c (.tooManyVariables e.mentioned.ncard kind.allowedVariables
          (", ".intercalate e.variableNames))
  /-- There is room for the variables, and the round trip of a derivative fails. -/
  | unsimplified {e : Expr} {error : FormulaError} :
      parse c.formula = .ok e →
      (∀ kind, c.kind? = some kind → e.mentioned.ncard ≤ kind.allowedVariables) →
      Expr.FirstFails error (c.derivatives e) → Fails c error

theorem derived_eq_error_iff {formula : String} {byVariable : Option String} {implicit : Bool} :
    derived formula byVariable implicit = .error error ↔
      Formula.readAs (derive formula byVariable implicit).kind? formula = .error error ∨
      ∃ f, Formula.readAs (derive formula byVariable implicit).kind? formula = .ok f ∧
        Expr.FirstFails error ((derive formula byVariable implicit).derivatives f.tree) := by
  cases implicit with
  | true =>
    rw [derived, if_pos rfl, bind_eq_error_iff]
    simp only [Expr.implicitSlope_eq_error_iff]
    rfl
  | false =>
    rw [derived, if_neg Bool.false_ne_true, bind_eq_error_iff]
    cases byVariable with
    | some v =>
      simp only [derivatives, Expr.firstFails_singleton_iff]
      rfl
    | none =>
      simp only [derivatives, Expr.firstFails_singleton_iff, ← Expr.slope_eq]
      rfl

/-- A command can fail where it reads its formula, and where it simplifies derivatives. -/
theorem texts_eq_error_iff :
    c.texts = .error error ↔
      Formula.readAs c.kind? c.formula = .error error ∨
      ∃ f, Formula.readAs c.kind? c.formula = .ok f ∧
        Expr.FirstFails error (c.derivatives f.tree) := by
  cases c with
  | inspect formula =>
    rw [texts, bind_eq_error_iff]
    refine or_congr Iff.rfl (exists_congr fun f => and_congr_right fun _ => ?_)
    exact iff_of_false (by rintro ⟨⟩) Expr.not_firstFails_nil
  | eval formula values =>
    rw [texts, bind_eq_error_iff]
    refine or_congr Iff.rfl (exists_congr fun f => and_congr_right fun _ => ?_)
    exact iff_of_false (by rintro ⟨⟩) Expr.not_firstFails_nil
  | derive formula byVariable implicit =>
    rw [texts, bind_eq_error_iff, derived_eq_error_iff]
    refine or_iff_left ?_
    rintro ⟨e, -, ⟨⟩⟩
  | sample formula range compiled =>
    rw [texts, bind_eq_error_iff]
    refine or_congr Iff.rfl (exists_congr fun f => and_congr_right fun read => ?_)
    -- With one variable at most there is nothing that can go wrong after reading.
    rw [sampled_eq (Formula.of_readFor read).2.2, ok_bind]
    exact iff_of_false (by rintro ⟨⟩) Expr.not_firstFails_nil

theorem fails_iff : c.Fails error ↔ c.texts = .error error := by
  rw [texts_eq_error_iff, Formula.readAs_eq_error_iff]
  constructor
  · rintro (refused | ⟨accepted, ofKind, many⟩ | ⟨accepted, few, fails⟩)
    · exact .inl (.inl ⟨_, refused, rfl⟩)
    · exact .inl (.inr ⟨_, _, accepted, ofKind, many, rfl⟩)
    · exact .inr ⟨_, Formula.readAs_eq_ok_iff.2 ⟨_, accepted, few, rfl⟩, fails⟩
  · rintro
      ((⟨cause, refused, rfl⟩ | ⟨e, kind, accepted, ofKind, many, rfl⟩) | ⟨f, read, fails⟩)
    · exact .unreadable refused
    · exact .crowded accepted ofKind many
    · obtain ⟨e, accepted, few, rfl⟩ := Formula.readAs_eq_ok_iff.1 read
      exact .unsimplified accepted few fails

/-- The first cause is the one. -/
theorem Fails.unique {other : FormulaError} (fails : c.Fails error) (fails' : c.Fails other) :
    error = other :=
  Except.error.inj ((fails_iff.1 fails).symm.trans (fails_iff.1 fails'))

theorem run_of_fails (fails : c.Fails error) : c.run = .failure error := by
  rw [run, fails_iff.1 fails]

theorem run_of_not_fails (succeeds : ∀ error, ¬ c.Fails error) :
    ∃ output messages, c.run = .success output messages := by
  rw [run]
  cases made : c.texts with
  | error error => exact absurd (fails_iff.2 made) (succeeds error)
  | ok both => exact ⟨both.1, both.2, rfl⟩

end Command

/-- A command fails cleanly.  It ends with the code `0`, or it ends with the code `1`, has printed nothing
and says why it fails.  It fails just if it has a cause: the text spells no formula, the formula has more
variables than there is room for, or the round trip of a derivative fails. -/
theorem performed_fails_cleanly {arguments : List String} {c : Command}
    (understood : Request.read arguments = .ok (.run c)) :
    runArguments arguments = c.performed ∧
    (c.performed.code = 0 ∨
      ∃ error, c.Fails error ∧ c.performed = ⟨1, "", "Error: " ++ error.message ++ "\n"⟩) ∧
    (c.performed.code = 1 ↔ ∃ error, c.Fails error) := by
  have same : runArguments arguments = c.run := by
    rw [runArguments, understood]
    rfl
  rw [same, c.performed_eq_run]
  by_cases fails : ∃ error, c.Fails error
  · obtain ⟨error, cause⟩ := fails
    rw [Command.run_of_fails cause]
    refine ⟨rfl, .inr ⟨error, cause, ?_⟩, iff_of_true rfl ⟨error, cause⟩⟩
    simp [Outcome.failure]
  · obtain ⟨output, messages, succeeded⟩ := Command.run_of_not_fails (not_exists.1 fails)
    rw [succeeded]
    exact ⟨rfl, .inl rfl, iff_of_false Nat.zero_ne_one fails⟩

/-- Three variables, where there is room for two. -/
theorem performed_fails_cleanly_three :
    let arguments := ["derive", "--implicit", "a + b + c"]
    let c := Command.derive "a + b + c" none true
    Request.read arguments = .ok (.run c) ∧ runArguments arguments = c.performed ∧
      c.performed =
        ⟨1, "", "Error: Too many variables: 3 used (a, b, c), at most 2 allowed\n"⟩ := by
  intro arguments c
  have understood : Request.read arguments = .ok (.run c) := by rfl
  let e := Expr.plus (.plus (.var "a") (.var "b")) (.var "c")
  have accepted : parse "a + b + c" = .ok e := by decide +kernel
  have count : e.mentioned.ncard = 3 := e.ncard_mentioned
  have crowded : c.Fails (.tooManyVariables 3 2 "a, b, c") := by
    have many : CurveKind.implicit.allowedVariables < e.mentioned.ncard := by
      rw [count]
      decide
    have crowded := Command.Fails.crowded (c := c) accepted rfl many
    rw [count] at crowded
    exact crowded
  obtain ⟨same, clean, failing⟩ := performed_fails_cleanly understood
  refine ⟨understood, same, ?_⟩
  obtain succeeded | ⟨error, cause, outcome⟩ := clean
  · exact absurd (succeeded.symm.trans (failing.2 ⟨_, crowded⟩)) Nat.zero_ne_one
  · rw [outcome, cause.unique crowded]
    decide +kernel

end Formulae
