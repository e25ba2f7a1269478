import Formulae.Proofs.Grammar.FirstWrong

/-!
# Products without their sign

A power that begins with a number, a text or an opening bracket multiplies what stands before it,
with the sign `*` or without.  `Elides ts us` says that the tokens `us` are the tokens `ts` without
some of these signs.

Derived tokens never end in such a sign, so a sign and the token behind it are never in two parts
of a derivation, and what is left out of the whole is left out of its parts (`Elides.split`).  By
induction, the tokens that are left derive with the same tree and the same levels
(`Derives.elides`), and are accepted like the others (`Stream.parse_of_elides`).

The converse does not hold.  In `sin*x` the sign stands in the place of an argument, and `sin x` is
no product.
-/

namespace Formulae

variable {n : Nat} {t last : Token} {ts us : List Token} {symbol : Symbol} {e : Expr}

/-! ## Leaving signs out -/

/-- The second list is the first one without some of the `*` that stand in front of a token that
begins a power. -/
inductive Elides : List Token → List Token → Prop where
  | nil : Elides [] []
  | kept {t : Token} {ts us : List Token} : Elides ts us → Elides (t :: ts) (t :: us)
  | elided {t u : Token} {ts us : List Token} :
      t.kind = .times → ts.head? = some u → Juxtaposing u.kind → Elides ts us →
      Elides (t :: ts) us

namespace Elides

theorem refl (ts : List Token) : Elides ts ts := by
  induction ts with
  | nil => exact .nil
  | cons t ts induction => exact .kept induction

theorem eq_nil (elides : Elides [] us) : us = [] := by
  cases elides
  rfl

/-- Only a `*` is left out. -/
theorem of_cons (elides : Elides (t :: ts) us) (other : t.kind ≠ .times) :
    ∃ vs, us = t :: vs ∧ Elides ts vs := by
  cases elides with
  | kept rest => exact ⟨_, rfl, rest⟩
  | elided times => exact absurd times other

theorem eq_singleton (elides : Elides [t] us) (other : t.kind ≠ .times) : us = [t] := by
  obtain ⟨vs, rfl, rest⟩ := elides.of_cons other
  rw [rest.eq_nil]

/-- What is left out of a list is left out of its parts if the first part does not end in `*`. -/
theorem split_concat (other : last.kind ≠ .times) :
    ∀ {front vs : List Token}, Elides (front ++ last :: us) vs →
      ∃ ws xs, vs = ws ++ xs ∧ Elides (front ++ [last]) ws ∧ Elides us xs := by
  intro front
  induction front with
  | nil =>
    intro vs elides
    obtain ⟨xs, rfl, rest⟩ := elides.of_cons other
    exact ⟨[last], xs, rfl, refl [last], rest⟩
  | cons t front induction =>
    intro vs elides
    cases elides with
    | kept rest =>
      obtain ⟨ws, xs, rfl, first, second⟩ := induction rest
      exact ⟨t :: ws, xs, rfl, .kept first, second⟩
    | elided times next begins rest =>
      obtain ⟨ws, xs, rfl, first, second⟩ := induction rest
      exact ⟨ws, xs, rfl, .elided times (by simpa using next) begins first, second⟩

end Elides

/-! ## Derived tokens -/

theorem Juxtaposing.ne_times {kind : Kind} (juxtaposing : Juxtaposing kind) : kind ≠ .times := by
  cases juxtaposing <;> decide

theorem Additive.ne_times {kind : Kind} {op : Operator} (additive : Additive kind op) :
    kind ≠ .times := by
  cases additive <;> decide

/-- Derived tokens end in a number, a text or a closing bracket. -/
theorem Derives.last_ne_times (derivation : Derives symbol n ts e) :
    ∃ front last, ts = front ++ [last] ∧ last.kind ≠ .times := by
  induction derivation with
  | ofTerm _ induction | ofPower _ induction | ofFactor _ induction => exact induction
  | @sum _ _ ts _ t _ _ _ _ _ _ _ second | @product _ _ ts _ t _ _ _ _ _ _ _ second
  | @raised _ _ ts _ t _ _ _ _ _ _ second =>
    obtain ⟨front, last, rfl, other⟩ := second
    exact ⟨ts ++ t :: front, last, by simp, other⟩
  | @juxtaposition _ _ ts _ _ _ _ _ _ _ _ second =>
    obtain ⟨front, last, whole, other⟩ := second
    exact ⟨ts ++ front, last, by rw [whole, List.append_assoc], other⟩
  | @negated _ _ t _ _ _ operand | @function _ _ t _ _ _ _ _ operand =>
    obtain ⟨front, last, rfl, other⟩ := operand
    exact ⟨t :: front, last, rfl, other⟩
  | @bracketed _ ts opening closing _ _ _ closes =>
    exact ⟨opening :: ts, closing, rfl, by simp [closes]⟩
  | @number t kind | @constant t _ kind | @applied t _ _ kind | @glued _ _ t _ _ _ kind
  | @var t _ kind =>
    exact ⟨[], t, rfl, by simp [kind]⟩

theorem Derives.split (derivation : Derives symbol n ts e) {vs : List Token}
    (elides : Elides (ts ++ us) vs) :
    ∃ ws xs, vs = ws ++ xs ∧ Elides ts ws ∧ Elides us xs := by
  obtain ⟨front, last, rfl, other⟩ := derivation.last_ne_times
  rw [List.append_assoc, List.singleton_append] at elides
  exact Elides.split_concat other elides

/-- Tokens without some signs of products derive as they do with them. -/
theorem Derives.elides (derivation : Derives symbol n ts e) :
    ∀ {us : List Token}, Elides ts us → Derives symbol n us e := by
  induction derivation with
  | ofTerm _ operand => exact fun elides => .ofTerm (operand elides)
  | ofPower _ operand => exact fun elides => .ofPower (operand elides)
  | ofFactor _ base => exact fun elides => .ofFactor (base elides)
  | sum left additive _ first second =>
    intro us elides
    obtain ⟨ws, xs, rfl, before, after⟩ := left.split elides
    obtain ⟨xs, rfl, behind⟩ := after.of_cons additive.ne_times
    exact .sum (first before) additive (second behind)
  | product left multiplicative _ first second =>
    intro us elides
    obtain ⟨ws, xs, rfl, before, after⟩ := left.split elides
    cases after with
    | kept after => exact .product (first before) multiplicative (second after)
    | elided times next begins after =>
      -- The sign is left out, and the token behind it is not.
      rw [times] at multiplicative
      cases multiplicative
      obtain ⟨_, rfl⟩ := List.head?_eq_some_iff.1 next
      obtain ⟨xs, rfl, -⟩ := after.of_cons begins.ne_times
      exact .juxtaposition (first before) begins (second after)
  | juxtaposition left begins _ first second =>
    intro us elides
    obtain ⟨ws, xs, rfl, before, after⟩ := left.split elides
    obtain ⟨xs, rfl, -⟩ := after.of_cons begins.ne_times
    exact .juxtaposition (first before) begins (second after)
  | raised left raising _ base exponent =>
    intro us elides
    obtain ⟨ws, xs, rfl, before, after⟩ := left.split elides
    obtain ⟨xs, rfl, behind⟩ := after.of_cons (by simp [raising])
    exact .raised (base before) raising (exponent behind)
  | negated minus _ operand =>
    intro us elides
    obtain ⟨xs, rfl, after⟩ := elides.of_cons (by simp [minus])
    exact .negated minus (operand after)
  | bracketed opens between closes families inside =>
    intro us elides
    obtain ⟨xs, rfl, behind⟩ := elides.of_cons (by simp [opens])
    obtain ⟨ws, ys, rfl, within, after⟩ := between.split behind
    rw [after.eq_singleton (by simp [closes])]
    exact .bracketed opens (inside within) closes families
  | function text reading _ argument =>
    intro us elides
    obtain ⟨xs, rfl, after⟩ := elides.of_cons (by simp [text])
    exact .function text reading (argument after)
  | number number =>
    intro us elides
    rw [elides.eq_singleton (by simp [number])]
    exact .number number
  | constant text reading =>
    intro us elides
    rw [elides.eq_singleton (by simp [text])]
    exact .constant text reading
  | applied text reading =>
    intro us elides
    rw [elides.eq_singleton (by simp [text])]
    exact .applied text reading
  | glued text reading letter =>
    intro us elides
    rw [elides.eq_singleton (by simp [text])]
    exact .glued text reading letter
  | var text reading =>
    intro us elides
    rw [elides.eq_singleton (by simp [text])]
    exact .var text reading

/-! ## Streams -/

/-- A stream that is accepted is accepted with the same tree without some signs of its products. -/
theorem Stream.parse_of_elides {s s' : Stream} (accepted : s.parse = .ok e)
    (elides : Elides s.toList s'.toList) : s'.parse = .ok e := by
  rw [parse, parseWithin_eq, bind_eq_ok_iff] at accepted
  obtain ⟨⟨tree, rest⟩, runs, returned⟩ := accepted
  obtain ⟨n, ts, enough, takes, derivation⟩ := expression_sound maxDepth maxDepth runs
  dsimp only at returned
  split at returned
  next finished =>
    cases returned
    obtain ⟨after, whole⟩ := takes.toList_eq
    rw [whole] at elides
    obtain ⟨ws, xs, whole', before, behind⟩ := derivation.split elides
    obtain ⟨after', rfl, -⟩ := behind.of_cons (by simp [finished])
    obtain ⟨rest', takes', same⟩ := exists_takes whole'
    rw [← same] at finished
    exact (parseWithin_of_takes maxDepth (derivation.elides before) takes' finished).enough enough
  next => cases returned

/-- The product `2*x^3*(y)`, and the same without signs. -/
theorem Stream.parse_of_elides_two_signs :
    let signs : Stream := ⟨[.number 0 2, .bare .times 1, .text 2 "x", .bare .power 3, .number 4 3,
      .bare .times 5, .opening 6 '(', .text 7 "y", .closing 8 ')'], .eof 10, rfl⟩
    let noSigns : Stream := ⟨[.number 0 2, .text 2 "x", .bare .power 3, .number 4 3,
      .opening 6 '(', .text 7 "y", .closing 8 ')'], .eof 10, rfl⟩
    let e := Expr.times (.times (.literal 2) (.power (.var "x") (.literal 3))) (.var "y")
    signs.parse = .ok e ∧ Elides signs.toList noSigns.toList ∧ noSigns.parse = .ok e := by
  intro signs noSigns e
  have accepted : signs.parse = .ok e := by decide +kernel
  have elides : Elides signs.toList noSigns.toList :=
    .kept (.elided rfl rfl .text (.kept (.kept (.kept (.elided rfl rfl .openBracket (.refl _))))))
  exact ⟨accepted, elides, parse_of_elides accepted elides⟩

end Formulae
