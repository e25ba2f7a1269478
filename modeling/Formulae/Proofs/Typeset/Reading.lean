import Formulae.Proofs.Number.Laws
import Formulae.Proofs.Typeset.Printed
import Formulae.Proofs.Typeset.Regrouping

/-!
# Reading a row

`Row.read` gives the expression that a row is read as, from left to right.

* An exponent binds tighter than a leading minus sign, that tighter than a dot, and that tighter than
  plus and minus between summands.
* Dots, and plus and minus, associate to the left.
* Brackets, and braces where the row still has them, group.

What is read and not yet put together stands in front of the place that is read (`Front`).  Cells
are read as an operand if they leave it as it was (`ReadsOperand`), as a factor if they leave the sum
in it (`ReadsFactor`), and as a summand in any case (`ReadsSum`).  The expressions are the expected
ones up to a law.
-/

namespace Formulae.Typeset

open Formulae.Number (isNegative)

/-! ## Reading -/

/-- An expression behind another one and an operator, if there are any. -/
def attach : Option (Expr × Operator) → Expr → Expr
  | none, e => e
  | some (front, op), e => .binary op front e

/-- What stands in front of an operand and is not yet put together with it. -/
structure Front where
  /-- The sum so far, with the operator behind it. -/
  sum : Option (Expr × Operator)
  /-- The product so far. -/
  factor : Option Expr
  /-- Whether there is a leading minus sign. -/
  negative : Bool

namespace Front

/-- Nothing stands in front. -/
def start : Front := ⟨none, none, false⟩

/-- The product that ends with a power. -/
def product (p : Front) (e : Expr) : Expr :=
  attach (p.factor.map (·, .times)) (if p.negative then e.negate else e)

/-- The sum that ends with a power. -/
def total (p : Front) (e : Expr) : Expr := attach p.sum (p.product e)

end Front

namespace Row

mutual

/-- Reads a row where an operand is expected. -/
def readOperand : Row → Front → Option Expr
  | operand e rest, p => rest.readOn p e false
  | minus rest, p => if p.negative then none else rest.readOperand { p with negative := true }
  | fraction numerator denominator rest, p => do
    let above ← numerator.readOperand .start
    let below ← denominator.readOperand .start
    rest.readOn p (.divide above below) false
  | applied f argument rest, p => do
    let u ← argument.readOperand .start
    rest.readOn p (.apply f u) false
  | brackets inside rest, p | braces inside rest, p => do
    let e ← inside.readOperand .start
    rest.readOn p e false
  | empty, _ | plus _, _ | dot _, _ | raised _ _, _ => none

/-- Reads a row behind an operand, which may have its exponent already. -/
def readOn : Row → Front → Expr → Bool → Option Expr
  | empty, p, e, _ => some (p.total e)
  | plus rest, p, e, _ => rest.readOperand ⟨some (p.total e, .plus), none, false⟩
  | minus rest, p, e, _ => rest.readOperand ⟨some (p.total e, .minus), none, false⟩
  | dot rest, p, e, _ => rest.readOperand ⟨p.sum, some (p.product e), false⟩
  | raised exponent rest, p, e, false => do
    let x ← exponent.readOperand .start
    rest.readOn p (.power e x) true
  | _, _, _, _ => none

end

/-- The expression that a row is read as. -/
def read (row : Row) : Option Expr := row.readOperand .start

end Row

/-! ## What cells are read as -/

variable {law : Expr → Expr → Prop} {p : Front} {sum : Option (Expr × Operator)}
  {cells cells' : Row → Row} {e l r : Expr}

/-- The cells are read as an operand. -/
def ReadsOperand (law : Expr → Expr → Prop) (p : Front) (cells : Row → Row) (e : Expr) : Prop :=
  ∃ last, (∀ rest, (cells rest).readOperand p = rest.readOn p last false) ∧ EqualUpTo law last e

/-- The cells are read as one or more factors. -/
def ReadsFactor (law : Expr → Expr → Prop) (p : Front) (cells : Row → Row) (e : Expr) : Prop :=
  ∃ q last isPower, (∀ rest, (cells rest).readOperand p = rest.readOn q last isPower) ∧
    q.sum = p.sum ∧ EqualUpTo law (q.product last) (p.product e)

/-- The cells are read as one or more summands. -/
def ReadsSum (law : Expr → Expr → Prop) (sum : Option (Expr × Operator)) (cells : Row → Row)
    (e : Expr) : Prop :=
  ∃ q last isPower,
    (∀ rest, (cells rest).readOperand ⟨sum, none, false⟩ = rest.readOn q last isPower) ∧
      EqualUpTo law (q.total last) (attach sum e)

theorem equalUpTo_attach (front : Option (Expr × Operator)) (equal : EqualUpTo law l r) :
    EqualUpTo law (attach front l) (attach front r) := by
  cases front with
  | none => exact equal
  | some front => exact .binary front.2 (.refl front.1) equal

theorem Front.equalUpTo_product (unsigned : p.negative = false) (equal : EqualUpTo law l r) :
    EqualUpTo law (p.product l) (p.product r) := by
  rw [product, product, unsigned]
  exact equalUpTo_attach _ equal

theorem ReadsOperand.factor (reads : ReadsOperand law p cells e) (unsigned : p.negative = false) :
    ReadsFactor law p cells e := by
  obtain ⟨last, readOn, equal⟩ := reads
  exact ⟨p, last, false, readOn, rfl, Front.equalUpTo_product unsigned equal⟩

theorem ReadsFactor.readsSum (reads : ReadsFactor law ⟨sum, none, false⟩ cells e) :
    ReadsSum law sum cells e := by
  obtain ⟨q, last, isPower, readOn, same, equal⟩ := reads
  refine ⟨q, last, isPower, readOn, ?_⟩
  rw [Front.total, same]
  exact equalUpTo_attach sum equal

/-- Cells with nothing around them. -/
theorem ReadsSum.read (reads : ReadsSum law none cells e) :
    ∃ s, (cells .empty).read = some s ∧ EqualUpTo law s e := by
  obtain ⟨q, last, isPower, readOn, equal⟩ := reads
  exact ⟨q.total last, readOn .empty, equal⟩

/-! ## Operands -/

theorem ReadsOperand.operand (e : Expr) : ReadsOperand law p (.operand e) e :=
  ⟨e, fun _ => rfl, .refl e⟩

/-- Cells with delimiters around them, which are read by themselves. -/
theorem ReadsOperand.delimited {row : Row → Row} (inside : ReadsSum law none cells e)
    (reads : ∀ rest, (row rest).readOperand p =
      (cells .empty).read.bind fun e => rest.readOn p e false) : ReadsOperand law p row e := by
  obtain ⟨s, read, equal⟩ := inside.read
  refine ⟨s, fun rest => ?_, equal⟩
  rw [reads, read, Option.bind_some]

theorem ReadsOperand.braces (inside : ReadsSum law none cells e) :
    ReadsOperand law p (.braces (cells .empty)) e :=
  .delimited inside fun _ => rfl

theorem ReadsOperand.brackets (inside : ReadsSum law none cells e) :
    ReadsOperand law p (.brackets (cells .empty)) e :=
  .delimited inside fun _ => rfl

theorem ReadsOperand.fraction (above : ReadsSum law none cells l)
    (below : ReadsSum law none cells' r) :
    ReadsOperand law p (.fraction (cells .empty) (cells' .empty)) (.divide l r) := by
  obtain ⟨s, readAbove, equalAbove⟩ := above.read
  obtain ⟨t, readBelow, equalBelow⟩ := below.read
  refine ⟨.divide s t, fun rest => ?_, .binary .divide equalAbove equalBelow⟩
  change ((cells .empty).read.bind fun above => (cells' .empty).read.bind fun below =>
    rest.readOn p (.divide above below) false) = _
  rw [readAbove, readBelow]
  rfl

theorem ReadsOperand.applied (f : Function) (argument : ReadsSum law none cells e) :
    ReadsOperand law p (.applied f (cells .empty)) (.apply f e) := by
  obtain ⟨s, read, equal⟩ := argument.read
  refine ⟨.apply f s, fun rest => ?_, .apply f equal⟩
  change ((cells .empty).read.bind fun u => rest.readOn p (.apply f u) false) = _
  rw [read]
  rfl

/-! ## Factors -/

/-- The sign of a literal is a leading minus sign. -/
theorem ReadsFactor.literal (unsigned : p.negative = false) (value : Float) :
    ReadsFactor law p (literalCells value) (.literal value) := by
  cases sign : isNegative value with
  | false =>
    rw [literalCells_of_not_negative sign]
    exact (ReadsOperand.operand _).factor unsigned
  | true =>
    rw [literalCells_of_negative sign]
    refine ⟨{ p with negative := true }, .literal (-value), false, fun rest => ?_, rfl, ?_⟩
    · rw [Row.readOperand, unsigned]
      rfl
    · rw [Front.product, Front.product, unsigned, if_pos rfl, Expr.negate, Number.neg_neg]
      exact .refl _

/-- A base with its exponent. -/
theorem ReadsOperand.raised (base : ReadsOperand law p cells l)
    (exponent : ReadsSum law none cells' r) (unsigned : p.negative = false) :
    ReadsFactor law p (fun rest => cells (.raised (cells' .empty) rest)) (.power l r) := by
  obtain ⟨last, readOn, equal⟩ := base
  obtain ⟨s, read, equal'⟩ := exponent.read
  refine ⟨p, .power last s, true, fun rest => ?_, rfl,
    Front.equalUpTo_product unsigned (.binary .power equal equal')⟩
  rw [readOn, Row.readOn, ← Row.read, read]
  rfl

/-- Factors with a dot between them, where brackets move to the left if there is a factor in front
of them. -/
theorem ReadsFactor.dot (left : ReadsFactor law p cells l)
    (right : ∀ front, ReadsFactor law ⟨p.sum, some front, false⟩ cells' r)
    (moves : EqualUpTo law (.times (p.product l) r) (p.product (.times l r))) :
    ReadsFactor law p (fun rest => cells (.dot (cells' rest))) (.times l r) := by
  obtain ⟨q, last, isPower, readOn, same, equal⟩ := left
  obtain ⟨q', last', isPower', readOn', same', equal'⟩ := right (q.product last)
  refine ⟨q', last', isPower', fun rest => ?_, same', ?_⟩
  · rw [readOn, Row.readOn, same, readOn']
  · exact equal'.trans ((EqualUpTo.binary .times equal (.refl r)).trans moves)

/-! ## Summands -/

/-- Summands with an operator between them, where brackets move to the left if there is a sum in
front of them. -/
theorem ReadsSum.operator {op : Operator} {sign : Row → Row}
    (follows : ∀ (rest : Row) (q : Front) (last : Expr) (isPower : Bool),
      (sign rest).readOn q last isPower = rest.readOperand ⟨some (q.total last, op), none, false⟩)
    (left : ReadsSum law sum cells l) (right : ∀ front, ReadsSum law (some (front, op)) cells' r)
    (moves : EqualUpTo law (.binary op (attach sum l) r) (attach sum (.binary op l r))) :
    ReadsSum law sum (fun rest => cells (sign (cells' rest))) (.binary op l r) := by
  obtain ⟨q, last, isPower, readOn, equal⟩ := left
  obtain ⟨q', last', isPower', readOn', equal'⟩ := right (q.total last)
  refine ⟨q', last', isPower', fun rest => ?_, ?_⟩
  · rw [readOn, follows, readOn']
  · exact equal'.trans ((EqualUpTo.binary op equal (.refl r)).trans moves)

/-! ## Cells of an expression -/

/-- Brackets of a product may move to the left, behind what stands in front. -/
structure Front.Admits (law : Expr → Expr → Prop) (p : Front) : Prop where
  /-- There is no leading minus sign. -/
  unsigned : p.negative = false
  times (l r : Expr) : EqualUpTo law (.times (p.product l) r) (p.product (.times l r))

/-- Brackets of a sum and a difference may move to the left, behind what stands in front. -/
structure AdmitsSum (law : Expr → Expr → Prop) (front : Option (Expr × Operator)) : Prop where
  plus (l r : Expr) : EqualUpTo law (.plus (attach front l) r) (attach front (.plus l r))
  minus (l r : Expr) : EqualUpTo law (.minus (attach front l) r) (attach front (.minus l r))

/-- The cells are read as an expression, behind everything that brackets may move to. -/
structure ReadsAs (law : Expr → Expr → Prop) (cells : Row → Row) (e : Expr) : Prop where
  factor : e.isAdditive = false → ∀ p, Front.Admits law p → ReadsFactor law p cells e
  sum : ∀ front, AdmitsSum law front → ReadsSum law front cells e

theorem admits_start (law : Expr → Expr → Prop) (front : Option (Expr × Operator)) :
    Front.Admits law ⟨front, none, false⟩ :=
  ⟨rfl, fun _ _ => .refl _⟩

theorem admitsSum_none : AdmitsSum law none :=
  ⟨fun _ _ => .refl _, fun _ _ => .refl _⟩

theorem admitsSum_plus (sums : ∀ a b, SumLaw a b → law a b) (front : Expr) :
    AdmitsSum law (some (front, .plus)) :=
  ⟨fun l r => .symm (.law (sums _ _ (.plus front l r))),
    fun l r => .symm (.law (sums _ _ (.minus front l r)))⟩

namespace ReadsAs

/-- A factor is a summand behind any sum. -/
theorem of_factor (factor : ∀ p, Front.Admits law p → ReadsFactor law p cells e) :
    ReadsAs law cells e :=
  ⟨fun _ => factor, fun front _ => (factor _ (admits_start law front)).readsSum⟩

theorem of_operand (operand : ∀ p, ReadsOperand law p cells e) : ReadsAs law cells e :=
  of_factor fun p admits => (operand p).factor admits.unsigned

/-- The cells with nothing around them. -/
theorem alone (reads : ReadsAs law cells e) : ReadsSum law none cells e :=
  reads.sum none admitsSum_none

/-- The cells in brackets, if these are needed, with nothing around them. -/
theorem group (reads : ReadsAs law cells e) (needed : Bool) :
    ReadsSum law none (groupCells needed cells) e := by
  cases needed with
  | false => exact reads.alone
  | true => exact ((ReadsOperand.brackets reads.alone).factor rfl).readsSum

/-- The cells in brackets, if these are needed, as a factor. -/
theorem groupFactor (reads : ReadsAs law cells e) {needed : Bool}
    (covers : e.isAdditive = true → needed = true) (admits : Front.Admits law p) :
    ReadsFactor law p (groupCells needed cells) e := by
  cases needed with
  | false => exact reads.factor (Bool.eq_false_iff.2 fun additive => nomatch covers additive) p admits
  | true => exact (ReadsOperand.brackets reads.alone).factor admits.unsigned

theorem plus (sums : ∀ a b, SumLaw a b → law a b) (left : ReadsAs law cells l)
    (right : ReadsAs law cells' r) :
    ReadsAs law (fun rest => cells (.plus (cells' rest))) (.plus l r) where
  factor := nofun
  sum front admits :=
    .operator (fun _ _ _ _ => rfl) (left.sum front admits)
      (fun front => right.sum _ (admitsSum_plus sums front)) (admits.plus l r)

theorem minus (left : ReadsAs law cells l) (right : ReadsAs law cells' r) :
    ReadsAs law (fun rest => cells (.minus (groupCells r.isAdditive cells' rest))) (.minus l r) where
  factor := nofun
  sum front admits :=
    .operator (fun _ _ _ _ => rfl) (left.sum front admits)
      (fun _ => (right.groupFactor id (admits_start law _)).readsSum) (admits.minus l r)

theorem fraction (above : ReadsAs law cells l) (below : ReadsAs law cells' r) :
    ReadsAs law (.fraction (cells .empty) (cells' .empty)) (.divide l r) :=
  of_operand fun _ => .fraction above.alone below.alone

theorem applied (f : Function) (argument : ReadsAs law cells e) (needed : Bool) :
    ReadsAs law (.applied f (groupCells needed cells .empty)) (.apply f e) :=
  of_operand fun _ => .applied f (argument.group needed)

theorem literal (value : Float) : ReadsAs law (literalCells value) (.literal value) :=
  of_factor fun _ admits => .literal admits.unsigned value

end ReadsAs

end Formulae.Typeset
