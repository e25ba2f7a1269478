import Formulae.Command.Run
import Formulae.Proofs.Formula.Steps
import Formulae.Proofs.Program.Evaluation

/-!
# The ways to sample a formula

There are three loops over the points of a range.  The interpreter keeps its bindings from point to
point, the value at a point starts from empty bindings, and a compiled formula fills a row by the
numbers of the points.

* `samples_eq` relates the first two.  The bindings that the interpreter keeps differ from empty ones
  in the main variable only, and this one is bound anew at each point (`run_sampleAt`).
* `sample_compile` relates the last two.
* `sampling_routes_agree` puts them together, with the errors, and takes them to the command line.
-/

namespace Formulae

theorem Range.length_points (r : Range) : r.points.length = r.count := by
  rw [points, List.length_map, List.length_range]

/-! ## Bindings that are kept -/

/-- No name but the given one is bound. -/
def BindsAtMost (name? : Option String) (b : Bindings) : Prop :=
  ∀ name, name? ≠ some name → b.value name = 0

theorem bindsAtMost_empty (name? : Option String) : BindsAtMost name? Bindings.empty :=
  fun _ _ => rfl

/-- The bindings of one name. -/
def Bindings.single (name? : Option String) (x : Float) : Bindings :=
  match name? with
  | some name => Bindings.empty.insert name x
  | none => Bindings.empty

namespace Expr

variable (e : Expr) {name? : Option String} {b : Bindings}

/-- A sample has the value with this one name bound, and binds no other name. -/
theorem run_sampleAt (bound : BindsAtMost name? b) (x : Float) :
    ∃ b', BindsAtMost name? b' ∧
      (e.sampleAt name? x).run b = ((x, e.value (Bindings.single name? x)), b') := by
  cases name? with
  | none =>
    refine ⟨b, bound, ?_⟩
    have same : b.value = Bindings.empty.value := funext fun name => bound name nofun
    have value : e.value b = e.value Bindings.empty := congrArg (e.eval .machine) same
    exact congrArg (fun y => ((x, y), b)) value
  | some name =>
    refine ⟨b.insert name x, ?_, ?_⟩
    · intro other differs
      rw [Bindings.value_insert, if_neg (fun same => differs (congrArg some same.symm))]
      exact bound other differs
    · have same : (b.insert name x).value = (Bindings.empty.insert name x).value := by
        funext other
        rw [Bindings.value_insert, Bindings.value_insert]
        by_cases equal : other = name
        · rw [if_pos equal, if_pos equal]
        · rw [if_neg equal, if_neg equal]
          exact bound other fun same => equal (Option.some.inj same).symm
      have value : e.value (b.insert name x) = e.value (Bindings.empty.insert name x) :=
        congrArg (e.eval .machine) same
      exact congrArg (fun y => ((x, y), b.insert name x)) value

/-- A run over points has the value at each of them, and binds no other name. -/
theorem run_mapM_sampleAt (bound : BindsAtMost name? b) (xs : List Float) :
    ∃ b', BindsAtMost name? b' ∧ (xs.mapM (e.sampleAt name?)).run b =
      (xs.map fun x => (x, e.value (Bindings.single name? x)), b') := by
  induction xs generalizing b with
  | nil => exact ⟨b, bound, rfl⟩
  | cons x xs induction =>
    obtain ⟨b', bound', first⟩ := run_sampleAt e bound x
    obtain ⟨b'', bound'', rest⟩ := induction bound'
    refine ⟨b'', bound'', ?_⟩
    rw [List.mapM_cons, StateT.run_bind, first]
    exact congrArg (fun p => ((x, e.value (Bindings.single name? x)) :: p.1, p.2)) rest

/-- The interpreted samples are the points with the values there. -/
theorem samples_eq (r : Range) : e.samples r = r.points.map fun x => (x, e.valueAt x) := by
  obtain ⟨b', -, run⟩ := run_mapM_sampleAt e (bindsAtMost_empty e.mainVariable?) r.points
  have first := congrArg Prod.fst run
  exact first

theorem length_samples (r : Range) : (e.samples r).length = r.count := by
  rw [samples_eq, List.length_map, r.length_points]

end Expr

/-! ## Compiled formulas -/

namespace CompiledFormula

variable {f : Formula}

theorem valueAt_eq_of_length_le (single : f.variableNames.length ≤ 1) (x : Float) :
    f.compile.program.call [x] = f.tree.valueAt x := by
  rw [Formula.compile, Program.call_compile single, Expr.valueAt, Expr.mainVariable?]
  change f.tree.variableNames.length ≤ 1 at single
  change f.tree.value (Bindings.ofList (f.tree.variableNames.zip [x])) = _
  cases names : f.tree.variableNames with
  | nil => rfl
  | cons name others =>
    rw [names] at single
    obtain rfl : others = [] := by simpa using single
    rfl

/-- With several variables there are no samples, whatever the range and the storage. -/
theorem sample_of_lt (several : 1 < f.variableNames.length) (r : Range) (storage : Storage) :
    f.compile.sample r storage = .error (.inputLength f.variableNames.length 1) :=
  if_pos several

/-- With at most one variable a storage that can hold the points is filled with the values there. -/
theorem sample_compile (single : f.variableNames.length ≤ 1) (r : Range) (storage : Storage) :
    f.compile.sample r storage =
      match storage with
      | .growing => .ok (r.points.map f.tree.valueAt)
      | .fixed n =>
        if r.count = n then .ok (r.points.map f.tree.valueAt)
        else .error (.inputLength r.count n) := by
  have filled : (List.replicate r.count (0 : Float)).mapIdx
      (fun i _ => f.compile.program.call [r.point i]) = r.points.map f.tree.valueAt := by
    apply List.ext_getElem
    · simp [Range.points]
    · intro i _ _
      simp [Range.points, valueAt_eq_of_length_le single]
  have notSeveral : ¬ 1 < f.compile.variableNames.length := Nat.not_lt.2 single
  rw [sample, if_neg notSeveral]
  cases storage with
  | growing =>
    dsimp only [Storage.zeros?]
    rw [filled]
  | fixed n =>
    dsimp only [Storage.zeros?]
    by_cases holds : r.count = n
    · rw [if_pos holds, if_pos holds]
      dsimp only
      rw [filled]
    · rw [if_neg holds, if_neg holds]
      rfl

end CompiledFormula

theorem Formula.build_of_length_le {f : Formula} (single : f.variableNames.length ≤ 1) :
    f.build = .ok f.compile := by
  rw [Formula.build, Program.build_of_length_le (single.trans (by decide))]
  rfl

/-! ## The command -/

namespace Command

variable {f : Formula}

theorem zip_points (e : Expr) (r : Range) :
    r.points.zip (r.points.map e.valueAt) = e.samples r := by
  rw [e.samples_eq, List.map_prod_left_eq_zip]

/-- The samples of a command do not depend on the way to compute them. -/
theorem sampled_eq (single : f.variableNames.length ≤ 1) (r : Range) (compiled : Bool) :
    sampled f r compiled = .ok (f.tree.samples r) := by
  cases compiled with
  | false => rfl
  | true =>
    have row : f.compile.sample r .growing = .ok (r.points.map f.tree.valueAt) :=
      CompiledFormula.sample_compile single r .growing
    rw [sampled, if_pos rfl, Formula.build_of_length_le single, ok_bind, row, ok_bind, zip_points]

theorem run_sample (formula : String) (r : Range) :
    (sample formula r true).run = (sample formula r false).run := by
  have texts : (sample formula r true).texts = (sample formula r false).texts := by
    rw [Command.texts, Command.texts]
    cases accepted : Formula.readFor .explicit formula with
    | error cause => rfl
    | ok f =>
      obtain ⟨-, -, single⟩ := Formula.of_readFor accepted
      rw [ok_bind, ok_bind, sampled_eq single, sampled_eq single]
  rw [run, run, texts]

end Command

/-- All ways to sample agree.  With at most one variable the interpreted samples are the points with
the values there, and a compiled formula fills a growing list, or a row of the right length, with the
same values.  With more variables it refuses every range and storage.  The command line shows the same
both ways. -/
theorem sampling_routes_agree :
    (∀ f : Formula, f.variableNames.length ≤ 1 → ∀ r : Range,
      f.tree.samples r = (r.points.map fun x => (x, f.tree.valueAt x)) ∧
      ∃ c, f.build = .ok c ∧ ∃ ys, c.sample r .growing = .ok ys ∧
        ys.length = r.count ∧ r.points.zip ys = f.tree.samples r ∧
        ∀ n, c.sample r (.fixed n) =
          if r.count = n then .ok ys else .error (.inputLength r.count n)) ∧
    (∀ f : Formula, 1 < f.variableNames.length → ∀ c, f.build = .ok c → ∀ r storage,
      c.sample r storage = .error (.inputLength f.variableNames.length 1)) ∧
    ∀ formula range,
      (Command.sample formula range true).run = (Command.sample formula range false).run := by
  refine ⟨fun f single r => ⟨f.tree.samples_eq r, f.compile, ?_⟩, ?_, Command.run_sample⟩
  · refine ⟨Formula.build_of_length_le single, r.points.map f.tree.valueAt, ?_⟩
    refine ⟨CompiledFormula.sample_compile single r .growing, ?_, Command.zip_points f.tree r,
      fun n => CompiledFormula.sample_compile single r (.fixed n)⟩
    rw [List.length_map, r.length_points]
  · intro f several c built r storage
    obtain rfl := Formula.eq_compile_of_build built
    exact CompiledFormula.sample_of_lt several r storage

/-- A pole is sampled as infinity, a row of two has no room for three values, and two variables are
refused. -/
theorem sampling_routes_agree_reciprocal :
    (∃ c, Formula.build ⟨"1 / x", .divide (.literal 1) (.var "x"), none⟩ = .ok c ∧
      c.sample ⟨-1, 1, 1⟩ .growing = .ok [-1, 1 / 0, 1] ∧
      c.sample ⟨-1, 1, 1⟩ (.fixed 2) = .error (.inputLength 3 2)) ∧
    ∃ c, Formula.build ⟨"x / y", .divide (.var "x") (.var "y"), none⟩ = .ok c ∧
      c.sample ⟨-1, 1, 1⟩ (.fixed 2) = .error (.inputLength 2 1) := by
  obtain ⟨agree, refuse, -⟩ := sampling_routes_agree
  constructor
  · obtain ⟨-, c, built, ys, row, length, zipped, rows⟩ :=
      agree ⟨"1 / x", .divide (.literal 1) (.var "x"), none⟩ (by decide) ⟨-1, 1, 1⟩
    have count : (⟨-1, 1, 1⟩ : Range).count = 3 := by decide +kernel
    have values : ys = [-1, 1 / 0, 1] := by
      rw [← List.map_snd_zip (length.trans_le (Range.length_points _).ge), zipped]
      decide +kernel
    refine ⟨c, built, row.trans (congrArg _ values), ?_⟩
    rw [rows 2, count]
    rfl
  · refine ⟨_, rfl, ?_⟩
    exact refuse ⟨"x / y", .divide (.var "x") (.var "y"), none⟩ (by decide) _ rfl _ _

end Formulae
