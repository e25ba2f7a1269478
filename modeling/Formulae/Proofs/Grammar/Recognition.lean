import Formulae.Proofs.Grammar.Completeness
import Formulae.Proofs.Lexing.Shape

/-!
# The language of formulas

`parse_iff_derives` puts the two directions together.  A text whose tokens are known has a tree
exactly when the tokens before the end of the input have a derivation with this tree that nests at
most 512 levels, and no list of tokens has derivations with two trees.

`Stream.parseWithin_of_derives` also says what happens to a derivation that nests too many levels.
-/

namespace Formulae

variable {limit n : Nat} {s : Stream} {e : Expr}

/-! ## Whole streams -/

theorem parseWithin_eq : s.parseWithin limit = (do
    let whole ← Rule.run (expression limit limit) s
    if whole.2.peek.kind = .eof then .ok whole.1
    else .error (.unexpected whole.2.peek.kind .eof whole.2.peek.position)) := by
  unfold Stream.parseWithin Rule.run
  rw [bind_map_left]
  congr
  funext whole
  exact expect_bind fun finished => rfl

/-- A stream that begins with derived tokens and an end of the input behind them is accepted if the
levels of the derivation are enough. -/
theorem Stream.parseWithin_of_takes (limit : Nat) {ts : List Token} {rest : Stream}
    (derivation : Derives .expression n ts e) (takes : s.Takes ts rest)
    (finished : rest.peek.kind = .eof) :
    Within limit n limit (s.parseWithin limit) (.ok e) := by
  have reads := derivation.readAs limit limit takes (by simp [finished]) (by rw [finished]; rfl)
  rw [continued_of_none (by rw [finished]; rfl)] at reads
  have returns := reads.bind fun whole =>
    if whole.2.peek.kind = .eof then .ok whole.1
    else .error (.unexpected whole.2.peek.kind .eof whole.2.peek.position)
  rw [if_pos finished] at returns
  rwa [parseWithin_eq]

/-- A stream whose tokens are derived is accepted if the levels of the derivation are enough. -/
theorem Stream.parseWithin_of_derives (limit : Nat)
    (derivation : Derives .expression n s.front e) :
    Within limit n limit (s.parseWithin limit) (.ok e) := by
  have takes : s.Takes s.front ⟨[], s.final, s.final_kind⟩ := ⟨by simp, rfl⟩
  exact parseWithin_of_takes limit derivation takes s.final_kind

/-- A stream without an end of the input inside it is accepted only if all of it is derived. -/
theorem Stream.derives_of_parseWithin (whole : ∀ t ∈ s.front, t.kind ≠ .eof)
    (accepted : s.parseWithin limit = .ok e) :
    ∃ n, n ≤ limit ∧ Derives .expression n s.front e := by
  rw [parseWithin_eq, bind_eq_ok_iff] at accepted
  obtain ⟨⟨tree, rest⟩, runs, returned⟩ := accepted
  obtain ⟨n, ts, within, takes, derivation⟩ := expression_sound limit limit runs
  dsimp only at returned
  split at returned
  next finished =>
    cases returned
    cases shape : rest.front with
    | nil =>
      rw [takes.1, shape, List.append_nil]
      exact ⟨n, within, derivation⟩
    | cons t us =>
      have inside : rest.peek ∈ s.front := by
        rw [takes.1, shape]
        simp [peek, shape]
      exact absurd finished (whole rest.peek inside)
  next => cases returned

theorem Stream.parseWithin_iff (whole : ∀ t ∈ s.front, t.kind ≠ .eof) :
    s.parseWithin limit = .ok e ↔ ∃ n, n ≤ limit ∧ Derives .expression n s.front e := by
  constructor
  · exact derives_of_parseWithin whole
  · rintro ⟨n, within, derivation⟩
    exact (parseWithin_of_derives limit derivation).enough within

/-! ## One tree -/

/-- The tokens of an expression determine its tree. -/
theorem Derives.tree_unique {m n : Nat} {ts : List Token} {e e' : Expr}
    (first : Derives .expression m ts e) (second : Derives .expression n ts e') : e = e' := by
  -- Both are read off the same stream, with levels enough for both.
  let s : Stream := ⟨ts, Token.eof 0, rfl⟩
  have firstRead := (s.parseWithin_of_derives (max m n) first).enough (Nat.le_max_left m n)
  have secondRead := (s.parseWithin_of_derives (max m n) second).enough (Nat.le_max_right m n)
  rw [firstRead] at secondRead
  exact Except.ok.inj secondRead

/-! ## Texts -/

/-- The tokens before the end of the input. -/
def beforeEnd (tokens : List Token) : List Token := tokens.takeWhile fun t => t.kind != .eof

theorem LexedTokens.ofList_eq {tokens : List Token} (lexed : LexedTokens tokens) :
    (Stream.ofList tokens).front = beforeEnd tokens ∧ ∀ t ∈ beforeEnd tokens, t.Lexed := by
  obtain ⟨front, final, rfl, frontLexed⟩ := lexed
  have unfinished : ∀ t ∈ front, (t.kind != .eof) = true := by
    intro t membership
    simpa using (frontLexed t membership).kind_ne_eof
  have before : beforeEnd (front ++ [Token.eof final]) = front := by
    rw [beforeEnd, List.takeWhile_append_of_pos unfinished]
    simp [Token.eof, Token.bare]
  rw [before]
  refine ⟨?_, frontLexed⟩
  simp [Stream.ofList, Token.eof, Token.bare]

theorem parse_of_tokenize {source : String} {tokens : List Token}
    (accepted : tokenize source = .ok tokens) :
    parse source = (Stream.ofList tokens).parseWithin maxDepth := by
  unfold parse
  rw [accepted]
  rfl

/-- The texts of formulas are those whose tokens are derived within 512 levels. -/
theorem parse_eq_ok_iff {source : String} {tokens : List Token}
    (accepted : tokenize source = .ok tokens) :
    parse source = .ok e ↔ ∃ n, n ≤ 512 ∧ Derives .expression n (beforeEnd tokens) e := by
  obtain ⟨fronts, lexed⟩ := (lexedTokens_of_tokenize accepted).ofList_eq
  rw [parse_of_tokenize accepted, ← fronts]
  refine Stream.parseWithin_iff ?_
  intro t membership
  rw [fronts] at membership
  exact (lexed t membership).kind_ne_eof

/-- The parser accepts exactly the derivable texts, and the grammar is unambiguous. -/
theorem parse_iff_derives_and_derives_unique :
    (∀ (source : String) (tokens : List Token), tokenize source = .ok tokens → ∀ e : Expr,
      parse source = .ok e ↔ ∃ n, n ≤ 512 ∧ Derives .expression n (beforeEnd tokens) e) ∧
    ∀ (ts : List Token) (m n : Nat) (e e' : Expr),
      Derives .expression m ts e → Derives .expression n ts e' → e = e' :=
  ⟨fun _ _ accepted _ => parse_eq_ok_iff accepted,
    fun _ _ _ _ _ first second => first.tree_unique second⟩

/-- The run `sinx` is the sine of `x`, which nests a power, a factor and the glued factor. -/
theorem derives_sinx :
    Derives .expression 3 [Token.text 0 "sinx"] (.apply .sin (.var "x")) := by
  have run : Reading "sinx" (.glued .sin 3 'x') := read_eq_iff.1 (by decide)
  have letter : Reading "x" (.var "x") := read_eq_iff.1 (by decide)
  exact .ofTerm (.ofPower (.ofFactor (.glued rfl run (.var rfl letter))))

theorem parse_sinx_and_derives_unique :
    tokenize "sinx" = .ok [Token.text 0 "sinx", Token.eof 5] ∧
    parse "sinx" = .ok (.apply .sin (.var "x")) ∧
    ∀ n e, Derives .expression n [Token.text 0 "sinx"] e → e = .apply .sin (.var "x") := by
  have tokens : tokenize "sinx" = .ok [Token.text 0 "sinx", Token.eof 5] := by cbv
  obtain ⟨accepts, unique⟩ := parse_iff_derives_and_derives_unique
  refine ⟨tokens, (accepts "sinx" _ tokens _).2 ⟨3, by decide, derives_sinx⟩, ?_⟩
  intro n e derivation
  exact unique _ _ _ _ _ derivation derives_sinx

end Formulae
