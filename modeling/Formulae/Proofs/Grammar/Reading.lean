import Formulae.Parser.Word

/-!
# Readings of a run of letters

`Reading letters word` says by the tables of names alone how a run of letters is read.  It has one
constructor for each kind of reading, and each of them excludes the kinds before it.

`read_eq_iff` says that the reader finds exactly this reading.  So a run of letters has one
reading, although a name could be split off in several ways.  The split is unique because no name
of a constant ends in another one (`constantName_eq_of_suffix`).
-/

namespace Formulae

/-! ## Names -/

/-- The run is a name of a constant. -/
def IsConstantName (letters : String) : Prop := ∃ c, (letters, c) ∈ Constant.names

/-- The run is a name of a function. -/
def IsFunctionName (letters : String) : Prop := ∃ f, (letters, f) ∈ Function.names

/-- The run is the name of a function and, right behind it, that of a constant. -/
def IsAppliedName (letters : String) : Prop :=
  ∃ start ending f c, (start, f) ∈ Function.names ∧ (ending, c) ∈ Constant.names ∧
    letters.toList = start.toList ++ ending.toList

/-- The run is the name of a function and one more letter. -/
def IsGluedName (letters : String) : Prop :=
  ∃ start f letter, (start, f) ∈ Function.names ∧ letters.toList = start.toList ++ [letter]

/-- How a run of letters is read: the first kind of reading that fits it. -/
inductive Reading (letters : String) : Word → Prop where
  | constant {c : Constant} :
      (letters, c) ∈ Constant.names → Reading letters (.constant c)
  | function {f : Function} :
      ¬ IsConstantName letters → (letters, f) ∈ Function.names → Reading letters (.function f)
  | applied {start ending : String} {f : Function} {c : Constant} :
      ¬ IsConstantName letters → ¬ IsFunctionName letters →
      (start, f) ∈ Function.names → (ending, c) ∈ Constant.names →
      letters.toList = start.toList ++ ending.toList → Reading letters (.applied f c)
  | glued {start : String} {f : Function} {letter : Char} :
      ¬ IsConstantName letters → ¬ IsFunctionName letters → ¬ IsAppliedName letters →
      (start, f) ∈ Function.names → letters.toList = start.toList ++ [letter] →
      Reading letters (.glued f start.toList.length letter)
  | var :
      ¬ IsConstantName letters → ¬ IsFunctionName letters → ¬ IsAppliedName letters →
      ¬ IsGluedName letters → Reading letters (.var letters)

/-! ## The tables of names -/

/-- Looking up a name in a table whose entries are all found under their names. -/
theorem lookup_eq_some_iff {α : Type} {table : List (String × α)} {letters : String} {a : α}
    (faithful : ∀ entry ∈ table,
      (table.find? fun other => other.1 == entry.1).map Prod.snd = some entry.2) :
    (table.find? fun other => other.1 == letters).map Prod.snd = some a ↔
      (letters, a) ∈ table := by
  constructor
  · intro found
    obtain ⟨entry, foundEntry, rfl⟩ := Option.map_eq_some_iff.1 found
    have named : entry.1 = letters := by simpa using List.find?_some foundEntry
    rw [← named]
    exact List.mem_of_find?_eq_some foundEntry
  · intro listed
    exact faithful (letters, a) listed

theorem Constant.ofName?_eq_some_iff {letters : String} {c : Constant} :
    Constant.ofName? letters = some c ↔ (letters, c) ∈ Constant.names :=
  lookup_eq_some_iff (by decide)

theorem Function.ofName?_eq_some_iff {letters : String} {f : Function} :
    Function.ofName? letters = some f ↔ (letters, f) ∈ Function.names :=
  lookup_eq_some_iff (by decide)

/-- A name is listed for one constant only. -/
theorem Constant.eq_of_listed {letters : String} {c c' : Constant}
    (listed : (letters, c) ∈ Constant.names) (listed' : (letters, c') ∈ Constant.names) : c = c' :=
  Option.some.inj ((ofName?_eq_some_iff.2 listed).symm.trans (ofName?_eq_some_iff.2 listed'))

/-- A name is listed for one function only. -/
theorem Function.eq_of_listed {letters : String} {f f' : Function}
    (listed : (letters, f) ∈ Function.names) (listed' : (letters, f') ∈ Function.names) : f = f' :=
  Option.some.inj ((ofName?_eq_some_iff.2 listed).symm.trans (ofName?_eq_some_iff.2 listed'))

theorem Constant.ofName?_eq_none_iff {letters : String} :
    Constant.ofName? letters = none ↔ ¬ IsConstantName letters := by
  simp only [Option.eq_none_iff_forall_ne_some, ne_eq, Constant.ofName?_eq_some_iff,
    IsConstantName, not_exists]

theorem Function.ofName?_eq_none_iff {letters : String} :
    Function.ofName? letters = none ↔ ¬ IsFunctionName letters := by
  simp only [Option.eq_none_iff_forall_ne_some, ne_eq, Function.ofName?_eq_some_iff,
    IsFunctionName, not_exists]

/-- No name of a constant ends in another one. -/
theorem constantName_eq_of_suffix {first second : String × Constant}
    (firstListed : first ∈ Constant.names) (secondListed : second ∈ Constant.names)
    (suffix : first.1.toList <:+ second.1.toList) : first = second := by
  have apart : ∀ first ∈ Constant.names, ∀ second ∈ Constant.names,
      first.1.toList <:+ second.1.toList → first = second := by decide
  exact apart first firstListed second secondListed suffix

/-! ## Splitting a run -/

theorem dropEnding?_eq_some_iff {ending text start : List Char} :
    dropEnding? ending text = some start ↔ text = start ++ ending := by
  unfold dropEnding?
  constructor
  · intro dropped
    split at dropped
    next ends =>
      obtain ⟨front, rfl⟩ := List.isSuffixOf_iff_suffix.1 ends
      simpa using dropped
    next => cases dropped
  · rintro rfl
    have ends : ending.isSuffixOf (start ++ ending) = true :=
      List.isSuffixOf_iff_suffix.2 (List.suffix_append start ending)
    simp [ends]

/-- The splits of a run that the reader tries for a constant argument. -/
theorem Word.appliedEntry_eq_some_iff {entry : String × Constant} {letters : List Char}
    {word : Word} :
    ((dropEnding? entry.1.toList letters).bind fun start =>
        (Function.ofName? (String.ofList start)).map fun f => Word.applied f entry.2) = some word ↔
      ∃ start f, (start, f) ∈ Function.names ∧ letters = start.toList ++ entry.1.toList ∧
        word = .applied f entry.2 := by
  simp only [Option.bind_eq_some_iff, Option.map_eq_some_iff, dropEnding?_eq_some_iff,
    Function.ofName?_eq_some_iff]
  constructor
  · rintro ⟨start, split, f, listed, rfl⟩
    exact ⟨String.ofList start, f, listed, by simpa using split, rfl⟩
  · rintro ⟨start, f, listed, split, rfl⟩
    exact ⟨start.toList, split, f, by simpa using listed, rfl⟩

theorem Word.exists_of_applied?_eq_some {letters : String} {word : Word}
    (found : applied? letters.toList = some word) :
    ∃ start ending f c, (start, f) ∈ Function.names ∧ (ending, c) ∈ Constant.names ∧
      letters.toList = start.toList ++ ending.toList ∧ word = .applied f c := by
  obtain ⟨entry, listed, foundEntry⟩ := List.exists_of_findSome?_eq_some found
  obtain ⟨start, f, startListed, split, rfl⟩ := appliedEntry_eq_some_iff.1 foundEntry
  exact ⟨start, entry.1, f, entry.2, startListed, listed, split, rfl⟩

theorem Word.applied?_eq_none_iff {letters : String} :
    applied? letters.toList = none ↔ ¬ IsAppliedName letters := by
  constructor
  · rintro none ⟨start, ending, f, c, startListed, endingListed, split⟩
    have refused := List.findSome?_eq_none_iff.1 none (ending, c) endingListed
    have splitEntry : letters.toList = start.toList ++ (ending, c).1.toList := split
    have found := appliedEntry_eq_some_iff.2 ⟨start, f, startListed, splitEntry, rfl⟩
    rw [refused] at found
    cases found
  · intro unsplit
    cases found : applied? letters.toList with
    | none => rfl
    | some word =>
      obtain ⟨start, ending, f, c, startListed, endingListed, split, -⟩ :=
        exists_of_applied?_eq_some found
      exact absurd ⟨start, ending, f, c, startListed, endingListed, split⟩ unsplit

theorem Word.glued?_eq_some_iff {letters : String} {word : Word} :
    glued? letters.toList = some word ↔
      ∃ start f letter, (start, f) ∈ Function.names ∧
        letters.toList = start.toList ++ [letter] ∧
        word = .glued f start.toList.length letter := by
  simp only [glued?, Option.bind_eq_some_iff, Option.map_eq_some_iff,
    Function.ofName?_eq_some_iff, List.getLast?_eq_some_iff]
  constructor
  · rintro ⟨letter, ⟨start, split⟩, f, listed, rfl⟩
    rw [split, List.dropLast_concat] at listed ⊢
    exact ⟨String.ofList start, f, letter, listed, by simp, by simp⟩
  · rintro ⟨start, f, letter, listed, split, rfl⟩
    rw [split, List.dropLast_concat]
    exact ⟨letter, ⟨start.toList, rfl⟩, f, by simpa using listed, rfl⟩

/-! ## The reader -/

/-- The reader finds a reading. -/
theorem reading_read (letters : String) : Reading letters (Word.read letters) := by
  unfold Word.read
  split
  next c found => exact .constant (Constant.ofName?_eq_some_iff.1 found)
  next noConstant =>
    have notConstant := Constant.ofName?_eq_none_iff.1 noConstant
    split
    next f found => exact .function notConstant (Function.ofName?_eq_some_iff.1 found)
    next noFunction =>
      have notFunction := Function.ofName?_eq_none_iff.1 noFunction
      split
      next word found =>
        obtain ⟨start, ending, f, c, startListed, endingListed, split, rfl⟩ :=
          Word.exists_of_applied?_eq_some found
        exact .applied notConstant notFunction startListed endingListed split
      next noApplied =>
        have notApplied := Word.applied?_eq_none_iff.1 noApplied
        cases found : Word.glued? letters.toList with
        | some word =>
          obtain ⟨start, f, letter, listed, split, rfl⟩ := Word.glued?_eq_some_iff.1 found
          exact .glued notConstant notFunction notApplied listed split
        | none =>
          refine .var notConstant notFunction notApplied ?_
          rintro ⟨start, f, letter, listed, split⟩
          rw [Word.glued?_eq_some_iff.2 ⟨start, f, letter, listed, split, rfl⟩] at found
          cases found

/-- The split of a run into the name of a function and that of a constant is unique. -/
theorem appliedSplit_unique {start start' ending ending' : String} {f f' : Function}
    {c c' : Constant} (startListed : (start, f) ∈ Function.names)
    (startListed' : (start', f') ∈ Function.names) (endingListed : (ending, c) ∈ Constant.names)
    (endingListed' : (ending', c') ∈ Constant.names)
    (same : start.toList ++ ending.toList = start'.toList ++ ending'.toList) :
    f = f' ∧ c = c' := by
  have suffix : ending.toList <:+ start.toList ++ ending.toList := List.suffix_append _ _
  have suffix' : ending'.toList <:+ start.toList ++ ending.toList := by
    rw [same]
    exact List.suffix_append _ _
  have entryEqual : (ending, c) = (ending', c') := by
    rcases List.suffix_or_suffix_of_suffix suffix suffix' with inner | inner
    · exact constantName_eq_of_suffix endingListed endingListed' inner
    · exact (constantName_eq_of_suffix endingListed' endingListed inner).symm
  obtain ⟨rfl, rfl⟩ := Prod.mk.inj entryEqual
  obtain rfl : start = start' := String.toList_inj.1 (List.append_cancel_right same)
  exact ⟨Function.eq_of_listed startListed startListed', rfl⟩

/-- A run of letters has at most one reading. -/
theorem Reading.unique {letters : String} {word word' : Word} (first : Reading letters word)
    (second : Reading letters word') : word = word' := by
  cases first with
  | constant listed =>
    cases second with
    | constant listed' => rw [Constant.eq_of_listed listed listed']
    | function notConstant | applied notConstant | glued notConstant | var notConstant =>
      exact absurd ⟨_, listed⟩ notConstant
  | function notConstant listed =>
    cases second with
    | constant listed' => exact absurd ⟨_, listed'⟩ notConstant
    | function _ listed' => rw [Function.eq_of_listed listed listed']
    | applied _ notFunction | glued _ notFunction | var _ notFunction =>
      exact absurd ⟨_, listed⟩ notFunction
  | applied notConstant notFunction startListed endingListed split =>
    cases second with
    | constant listed' => exact absurd ⟨_, listed'⟩ notConstant
    | function _ listed' => exact absurd ⟨_, listed'⟩ notFunction
    | applied _ _ startListed' endingListed' split' =>
      obtain ⟨rfl, rfl⟩ := appliedSplit_unique startListed startListed' endingListed endingListed'
        (split.symm.trans split')
      rfl
    | glued _ _ notApplied | var _ _ notApplied =>
      exact absurd ⟨_, _, _, _, startListed, endingListed, split⟩ notApplied
  | glued notConstant notFunction notApplied listed split =>
    cases second with
    | constant listed' => exact absurd ⟨_, listed'⟩ notConstant
    | function _ listed' => exact absurd ⟨_, listed'⟩ notFunction
    | applied _ _ startListed' endingListed' split' =>
      exact absurd ⟨_, _, _, _, startListed', endingListed', split'⟩ notApplied
    | glued _ _ _ listed' split' =>
      have concatenated := split.symm.trans split'
      obtain ⟨startEqual, letterEqual⟩ := List.append_inj' concatenated rfl
      obtain rfl := String.toList_inj.1 startEqual
      rw [List.singleton_inj.1 letterEqual, Function.eq_of_listed listed listed']
    | var _ _ _ notGlued => exact absurd ⟨_, _, _, listed, split⟩ notGlued
  | var notConstant notFunction notApplied notGlued =>
    cases second with
    | constant listed' => exact absurd ⟨_, listed'⟩ notConstant
    | function _ listed' => exact absurd ⟨_, listed'⟩ notFunction
    | applied _ _ startListed' endingListed' split' =>
      exact absurd ⟨_, _, _, _, startListed', endingListed', split'⟩ notApplied
    | glued _ _ _ listed' split' => exact absurd ⟨_, _, _, listed', split'⟩ notGlued
    | var => rfl

theorem read_eq_iff {letters : String} {word : Word} :
    Word.read letters = word ↔ Reading letters word := by
  constructor
  · rintro rfl
    exact reading_read letters
  · intro reading
    exact (reading_read letters).unique reading

end Formulae
