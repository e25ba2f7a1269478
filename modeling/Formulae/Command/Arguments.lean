import Formulae.Decimal.Numeral
import Formulae.Sampling.Range
import Formulae.Text.Blank

/-!
# Command lines

A command line names one of four commands, with a formula and options, or asks for the version.

The arguments of a command are read from left to right.

* `--name=value` gives a value to an option.  `--name` alone takes the next argument as its value.
  A flag takes no value.
* After `--` every argument is taken as it stands.
* Any other argument that begins with `-` and goes on is an error, with one exception: an option
  for a bound of a range takes a following negative number.  `isNegativeNumber` says what counts
  as one.
* What remains is the formula.  It is given exactly once.
* Only `--at` may be given more than once.  `--implicit` and `--variable` exclude each other.

A value that was given with `=` is checked at once.  A value in an argument of its own waits until
the next option or the formula has been recognised, or until the end.  So an argument that fits
nowhere is reported in place of a wrong value right before it.
-/

namespace Formulae

open Formulae.Text (isDigit trim)

/-! ## Requests -/

/-- A command with its options. -/
inductive Command where
  /-- Shows a formula in all its forms. -/
  | inspect (formula : String)
  /-- Evaluates a formula at given values. -/
  | eval (formula : String) (values : List (String × Float))
  /-- Differentiates a formula. -/
  | derive (formula : String) (byVariable : Option String) (implicit : Bool)
  /-- Samples a formula over a range, compiled or not. -/
  | sample (formula : String) (range : Range) (compiled : Bool)

/-- What a command line asks for. -/
inductive Request where
  /-- The version of the program. -/
  | version
  /-- A command. -/
  | run (command : Command)

/-- Why a command line cannot be understood. -/
inductive UsageError where
  /-- A value does not fit its option. -/
  | invalidValue (option value reason : String)
  /-- An argument is missing, unknown, or in the wrong place. -/
  | misplaced
  deriving DecidableEq, Repr

/-- The wording of a usage error. -/
def UsageError.message : UsageError → String
  | .invalidValue option value reason =>
    "error: invalid value '" ++ value ++ "' for '" ++ option ++ "': " ++ reason
  | .misplaced => "error: the arguments do not fit any command"

/-! ## Options -/

/-- An option of a command. -/
inductive OptionName where
  | at
  | variable
  | implicit
  | start
  | stop
  | step
  | compiled
  deriving DecidableEq, Repr

namespace OptionName

/-- The name of an option, without the leading hyphens. -/
def text : OptionName → String
  | .at => "at"
  | .variable => "variable"
  | .implicit => "implicit"
  | .start => "from"
  | .stop => "to"
  | .step => "step"
  | .compiled => "jit"

/-- The option as it is named in messages. -/
def display (o : OptionName) : String :=
  "--" ++ o.text ++ " <" ++ o.text.map Char.toUpper ++ ">"

/-- Whether an option takes a value. -/
def takesValue : OptionName → Bool
  | .implicit | .compiled => false
  | _ => true

/-- Whether a negative number in an argument of its own may be the value. -/
def takesNegative : OptionName → Bool
  | .start | .stop => true
  | _ => false

/-- Whether an option may be given more than once. -/
def isRepeatable : OptionName → Bool
  | .at => true
  | _ => false

end OptionName

/-- The name of a command. -/
inductive CommandName where
  | inspect
  | eval
  | derive
  | sample
  deriving DecidableEq, Repr

namespace CommandName

/-- All commands. -/
def all : List CommandName := [.inspect, .eval, .derive, .sample]

/-- The word that names a command. -/
def text : CommandName → String
  | .inspect => "inspect"
  | .eval => "eval"
  | .derive => "derive"
  | .sample => "sample"

/-- The options of a command. -/
def options : CommandName → List OptionName
  | .inspect => []
  | .eval => [.at]
  | .derive => [.variable, .implicit]
  | .sample => [.start, .stop, .step, .compiled]

/-- The command that a word names. -/
def ofText? (word : String) : Option CommandName := all.find? fun c => c.text == word

end CommandName

/-! ## Values -/

/-- What the options of a command have given so far. -/
structure Settings where
  /-- The formula. -/
  formula : Option String := none
  /-- The options that were given. -/
  given : List OptionName := []
  /-- The values for variables, in order. -/
  values : List (String × Float) := []
  /-- The variable to differentiate by. -/
  byVariable : Option String := none
  /-- The range to sample. -/
  range : Range := {}

/-- A text split at its first equality sign. -/
def splitAtEquals (cs : List Char) : Option (List Char × List Char) :=
  match cs.span (· != '=') with
  | (_, []) => none
  | (name, _ :: value) => some (name, value)

/-- A name with a value, as in `x=2`, or the reason why the text is none. -/
def readBinding (text : String) : Except String (String × Float) :=
  match splitAtEquals text.toList with
  | none => .error ("expected name=value, got '" ++ text ++ "'")
  | some (name, value) =>
    match Decimal.read (String.ofList (trim value)) with
    | .ok x => .ok (String.ofList (trim name), x)
    | .error cause =>
      .error ("invalid value for " ++ String.ofList name ++ ": " ++ cause.message)

/-- A number, or the reason why the text is none. -/
def readNumber (text : String) : Except String Float :=
  match Decimal.read text with
  | .ok x => .ok x
  | .error cause => .error cause.message

namespace Settings

/-- The settings after an option with its value, or the reason why the value does not fit.  A flag
does not look at the value. -/
def store (s : Settings) (value : String) : OptionName → Except String Settings
  | .at => do
    let binding ← readBinding value
    .ok { s with values := s.values ++ [binding] }
  | .variable => .ok { s with byVariable := some value }
  | .start => do
    let x ← readNumber value
    .ok { s with range := { s.range with start := x } }
  | .stop => do
    let x ← readNumber value
    .ok { s with range := { s.range with stop := x } }
  | .step => do
    let x ← readNumber value
    .ok { s with range := { s.range with step := x } }
  | .implicit | .compiled => .ok s

/-- The settings after an option with its value. -/
def give (s : Settings) (o : OptionName) (value : String) : Except UsageError Settings :=
  if s.given.contains o && !o.isRepeatable then .error .misplaced
  else
    match s.store value o with
    | .ok s => .ok { s with given := o :: s.given }
    | .error reason => .error (.invalidValue o.display value reason)

/-- The command that the settings make up. -/
def command (s : Settings) (name : CommandName) : Except UsageError Command :=
  match s.formula with
  | none => .error .misplaced
  | some formula =>
    match name with
    | .inspect => .ok (.inspect formula)
    | .eval => .ok (.eval formula s.values)
    | .derive =>
      let implicit := s.given.contains .implicit
      if implicit && s.byVariable.isSome then .error .misplaced
      else .ok (.derive formula s.byVariable implicit)
    | .sample => .ok (.sample formula s.range (s.given.contains .compiled))

end Settings

/-! ## Reading arguments -/

/-- Whether the characters after a hyphen make it a negative number: digits with at most one
point, which is not the first, and at most one exponent mark, which comes after the point and
neither first nor last. -/
def isNegativeNumber (cs : List Char) : Bool :=
  let (whole, afterWhole) := cs.span isDigit
  let afterFraction :=
    match whole, afterWhole with
    | _ :: _, '.' :: rest => rest.dropWhile isDigit
    | _, rest => rest
  match whole, afterFraction with
  | _, [] => true
  | _ :: _, mark :: exponent =>
    (mark == 'e' || mark == 'E') && !exponent.isEmpty && exponent.all isDigit
  | [], _ => false

/-- The sort of an argument by its first characters. -/
inductive Argument where
  /-- The argument `--`. -/
  | escape
  /-- An argument that begins with two hyphens, with the value after its equality sign. -/
  | long (name : String) (value : Option String)
  /-- An argument that begins with one hyphen, with what follows. -/
  | short (flags : List Char)
  /-- Any other argument. -/
  | plain (text : String)

/-- The sort of an argument. -/
def Argument.ofText (text : String) : Argument :=
  match text.toList with
  | ['-', '-'] => .escape
  | '-' :: '-' :: rest =>
    match splitAtEquals rest with
    | some (name, value) => .long (String.ofList name) (some (String.ofList value))
    | none => .long (String.ofList rest) none
  | '-' :: flag :: rest => .short (flag :: rest)
  | _ => .plain text

/-- An option whose value is not checked yet. -/
inductive Pending where
  /-- There is none. -/
  | none
  /-- The option waits for its value. -/
  | open (o : OptionName)
  /-- The option has a value. -/
  | filled (o : OptionName) (value : String)

/-- The settings after the pending option. -/
def Settings.settle (s : Settings) : Pending → Except UsageError Settings
  | .none => .ok s
  | .open _ => .error .misplaced
  | .filled o value => s.give o value

/-- The settings after the formula.  It is an error to give it twice. -/
def Settings.giveFormula (s : Settings) (pending : Pending) (text : String) :
    Except UsageError Settings :=
  match s.formula with
  | some _ => .error .misplaced
  | none => do
    let s ← s.settle pending
    .ok { s with formula := some text }

/-- The settings and the pending option after a recognised option. -/
def Settings.giveOption (s : Settings) (pending : Pending) (o : OptionName)
    (value : Option String) : Except UsageError (Settings × Pending) :=
  match o.takesValue, value with
  | true, some value => do
    let s ← s.settle pending
    let s ← s.give o value
    .ok (s, .none)
  | true, none => do
    let s ← s.settle pending
    .ok (s, .open o)
  | false, some _ => .error .misplaced
  | false, none => do
    let s ← s.settle pending
    let s ← s.give o ""
    .ok (s, .none)

/-- The settings after arguments that are all taken as they stand. -/
def readPlain (s : Settings) (pending : Pending) : List String → Except UsageError Settings
  | [] => s.settle pending
  | text :: rest => do
    let s ← s.giveFormula pending text
    readPlain s .none rest

/-- The settings that all arguments make up. -/
def readArguments (options : List OptionName) (s : Settings) (pending : Pending) :
    List String → Except UsageError Settings
  | [] => s.settle pending
  | text :: rest =>
    match Argument.ofText text, pending with
    | .escape, _ => readPlain s pending rest
    | .long name value, _ =>
      match options.find? fun o => o.text == name with
      | none => .error .misplaced
      | some o => do
        let (s, pending) ← s.giveOption pending o value
        readArguments options s pending rest
    | .short flags, .open o =>
      if o.takesNegative && isNegativeNumber flags then
        readArguments options s (.filled o text) rest
      else .error .misplaced
    | .short _, _ => .error .misplaced
    | .plain text, .open o => readArguments options s (.filled o text) rest
    | .plain text, _ => do
      let s ← s.giveFormula pending text
      readArguments options s .none rest

/-- Whether an argument in the place of a command asks for the version. -/
def asksForVersion (text : String) : Bool :=
  match Argument.ofText text with
  | .long "version" none => true
  | .short ('V' :: _) => true
  | _ => false

/-- The request that a command line makes. -/
def Request.read : List String → Except UsageError Request
  | [] => .error .misplaced
  | word :: rest =>
    if asksForVersion word then .ok .version
    else
      match CommandName.ofText? word with
      | none => .error .misplaced
      | some name => do
        let settings ← readArguments name.options {} .none rest
        let command ← settings.command name
        .ok (.run command)

end Formulae
