import Calculator.Proofs.FirstFailure
import Calculator.Proofs.Number.FloorDivision

/-!
# Expressions of whole numbers

An expression of whole numbers with signs, sums, products and division rounded down has an exact
value among the whole numbers, unless it divides by zero.  `Expr.whole?` computes it without any
rounding.  The calculator computes with numbers of 53 bits, and yet comes to the same value as long
as no part of the expression is larger than `2 ^ 53`, that limit included (`evaluate_of_exact`):
each operation is exact there, also the quotient, which goes through a difference, a quotient and a
correction by one.  If a part divides by zero before anything has become too large, that is what is
reported.
-/

namespace Calculator

/-! ## Values among the whole numbers -/

/-- A sign on whole numbers. -/
def UnaryOp.whole : UnaryOp → Int → Int
  | negate, n => -n
  | identity, n => n

/-- **The operations on whole numbers.**  Division rounds down, and its remainder is what the floor
leaves; neither exists for the divisor zero.  Division that does not round and powers lead out of
the whole numbers. -/
def BinaryOp.whole? : BinaryOp → Int → Int → Option Int
  | add, i, j => some (i + j)
  | subtract, i, j => some (i - j)
  | multiply, i, j => some (i * j)
  | floorDivide, i, j => if j = 0 then none else some ⌊(i : ℚ) / j⌋
  | modulo, i, j => if j = 0 then none else some (i - j * ⌊(i : ℚ) / j⌋)
  | divide, _, _ | power, _, _ => none

namespace Expr

/-- **The exact value of an expression among the whole numbers.** -/
def whole? : Expr → Option Int
  | number value => if value.isFinite && value.toRat.isInt then some value.toRat.num else none
  | unary op operand => operand.whole?.map op.whole
  | binary op left right => do op.whole? (← left.whole?) (← right.whole?)

/-- **The expressions of whole numbers**: literals that are whole, signs, sums, differences,
products, and division rounded down with its remainder. -/
def IsWhole : Expr → Prop
  | number value => value.isFinite = true ∧ ∃ n : Int, value.toRat = n
  | unary _ operand => operand.IsWhole
  | binary op left right => op ≠ .divide ∧ op ≠ .power ∧ left.IsWhole ∧ right.IsWhole

/-- A part that has an exact value, and one that is not larger than `2 ^ 53`. -/
def HasExactValue (e : Expr) : Prop := ∃ n, e.whole? = some n ∧ |n| ≤ 2 ^ (53 : Nat)

theorem isInt_iff {q : ℚ} : q.isInt = true ↔ ∃ n : Int, q = n := by
  rw [Rat.isInt, beq_iff_eq, Rat.den_eq_one_iff]
  exact ⟨fun h => ⟨q.num, h.symm⟩, by rintro ⟨n, rfl⟩; rfl⟩

instance decidableIsWhole : (e : Expr) → Decidable e.IsWhole
  | number value => decidable_of_iff (value.isFinite = true ∧ value.toRat.isInt = true)
      (and_congr_right' isInt_iff)
  | unary _ operand => decidableIsWhole operand
  | binary op left right =>
    have := decidableIsWhole left
    have := decidableIsWhole right
    inferInstanceAs (Decidable (op ≠ .divide ∧ op ≠ .power ∧ left.IsWhole ∧ right.IsWhole))

instance (e : Expr) : Decidable e.HasExactValue :=
  decidable_of_iff (e.whole?.any (|·| ≤ 2 ^ (53 : Nat)) = true)
    (by rw [HasExactValue, Option.any_eq_true]; simp only [decide_eq_true_eq])

end Expr

/-! ## One operation -/

section Operations

variable {op : BinaryOp} {a b : Binary64} {i j n : Int}

theorem UnaryOp.hasValue_apply (op : UnaryOp) (ha : a.HasValue i) :
    (op.apply a).HasValue (op.whole i) := by
  cases op with
  | negate => simpa [apply, whole] using ha.neg
  | identity => exact ha

theorem BinaryOp.dividesByZero_of_whole (hb : b.HasValue j) (hdivide : op ≠ .divide)
    (hpower : op ≠ .power) :
    op.dividesByZero a b = true ↔ op.whole? i j = none := by
  have hzero : b.isZero = true ↔ j = 0 := by rw [hb.isZero_iff, Int.cast_eq_zero]
  cases op with
  | divide => exact absurd rfl hdivide
  | power => exact absurd rfl hpower
  | floorDivide | modulo => simp [dividesByZero, whole?, hzero]
  | add | subtract | multiply => simp [dividesByZero, whole?]

/-- **One operation is exact** if its operands and its exact result are not larger than `2 ^ 53`. -/
theorem BinaryOp.hasValue_compute (ha : a.HasValue i) (hb : b.HasValue j)
    (hi : |i| ≤ 2 ^ (53 : Nat)) (hj : |j| ≤ 2 ^ (53 : Nat)) (hn : op.whole? i j = some n)
    (hsmall : |n| ≤ 2 ^ (53 : Nat)) : (op.compute a b).HasValue n := by
  have hrepresentable := Binary64.representable_intCast hsmall
  cases op with
  | add =>
    cases hn
    push_cast at hrepresentable ⊢
    exact (ha.add hb).hasValue hrepresentable
  | subtract =>
    cases hn
    push_cast at hrepresentable ⊢
    exact (ha.sub hb).hasValue hrepresentable
  | multiply =>
    cases hn
    push_cast at hrepresentable ⊢
    exact (ha.mul hb).hasValue hrepresentable
  | floorDivide =>
    obtain ⟨hne, hvalue⟩ := (Option.ite_none_left_eq_some ..).1 hn
    cases hvalue
    exact ha.floorDiv_whole hb hne hi hsmall
  | modulo =>
    obtain ⟨hne, hvalue⟩ := (Option.ite_none_left_eq_some ..).1 hn
    cases hvalue
    exact ha.floorMod_whole hb hne hj
  | divide | power => cases hn

theorem BinaryOp.apply_of_whole (ha : a.HasValue i) (hb : b.HasValue j) (hdivide : op ≠ .divide)
    (hpower : op ≠ .power) (hi : |i| ≤ 2 ^ (53 : Nat)) (hj : |j| ≤ 2 ^ (53 : Nat))
    (hn : op.whole? i j = some n) (hsmall : |n| ≤ 2 ^ (53 : Nat)) :
    ∃ v, op.apply a b = .ok v ∧ v.HasValue n := by
  have hvalue := hasValue_compute ha hb hi hj hn hsmall
  have hdefined : ¬ op.dividesByZero a b = true := by
    rw [dividesByZero_of_whole hb hdivide hpower, hn]
    simp
  refine ⟨_, ?_, hvalue⟩
  rw [apply, if_neg hdefined, checked_eq_ok_iff]
  exact ⟨rfl, hvalue.isFinite⟩

end Operations

/-! ## The value of an expression -/

namespace Expr

variable {e : Expr} {n : Int}

theorem self_mem_postOrder (e : Expr) : e ∈ e.postOrder := by
  cases e <;> simp [postOrder]

theorem whole?_number {value : Binary64} (h : value.HasValue n) :
    (number value).whole? = some n := by
  simp [whole?, h.isFinite, h.toRat_eq, Rat.isInt]

theorem whole?_unary {op : UnaryOp} {operand : Expr} (h : operand.whole? = some n) :
    (unary op operand).whole? = some (op.whole n) := by
  simp [whole?, h]

theorem whole?_binary {op : BinaryOp} {left right : Expr} {i j : Int} (hleft : left.whole? = some i)
    (hright : right.whole? = some j) : (binary op left right).whole? = op.whole? i j := by
  simp [whole?, hleft, hright]

/-- **An expression is exact if all its parts have exact values.** -/
theorem evaluate_of_exact (he : e.IsWhole) (hparts : ∀ sub ∈ e.postOrder, sub.HasExactValue) :
    ∃ n v, e.whole? = some n ∧ |n| ≤ 2 ^ (53 : Nat) ∧ e.evaluate = .ok v ∧ v.HasValue n := by
  obtain ⟨n, hn, hsmall⟩ := hparts e e.self_mem_postOrder
  refine ⟨n, ?_⟩
  induction e generalizing n with
  | number value =>
    obtain ⟨hfinite, k, hk⟩ := he
    have hvalue : value.HasValue k := ⟨hfinite, hk⟩
    obtain rfl := Option.some.inj ((whole?_number hvalue).symm.trans hn)
    exact ⟨value, hn, hsmall, checked_eq_ok_iff.2 ⟨rfl, hfinite⟩, hvalue⟩
  | unary op operand ih =>
    simp only [postOrder, List.forall_mem_append, List.forall_mem_singleton] at hparts
    obtain ⟨k, hk, hbound⟩ := hparts.1 operand operand.self_mem_postOrder
    obtain ⟨x, -, -, hoperand, hvalue⟩ := ih he hparts.1 k hk hbound
    obtain rfl := Option.some.inj ((whole?_unary hk).symm.trans hn)
    exact ⟨op.apply x, hn, hsmall, evaluate_unary_eq_ok_iff.2 ⟨x, hoperand, rfl⟩,
      op.hasValue_apply hvalue⟩
  | binary op left right ihl ihr =>
    simp only [postOrder, List.forall_mem_append, List.forall_mem_singleton] at hparts
    obtain ⟨hdivide, hpower, hleft, hright⟩ := he
    obtain ⟨i, hi, hi'⟩ := hparts.1 left left.self_mem_postOrder
    obtain ⟨j, hj, hj'⟩ := hparts.2.1 right right.self_mem_postOrder
    obtain ⟨a, -, -, heleft, ha⟩ := ihl hleft hparts.1 i hi hi'
    obtain ⟨b, -, -, heright, hb⟩ := ihr hright hparts.2.1 j hj hj'
    have hop := (whole?_binary hi hj).symm.trans hn
    obtain ⟨v, happly, hv⟩ := BinaryOp.apply_of_whole ha hb hdivide hpower hi' hj' hop hsmall
    exact ⟨v, hn, hsmall, evaluate_binary_eq_ok_iff.2 ⟨a, b, heleft, heright, happly⟩, hv⟩

theorem split_append {α : Type} {first second before after : List α} {x : α}
    (h : first ++ second = before ++ x :: after) :
    (∃ behind, first = before ++ x :: behind) ∨
      ∃ front, before = first ++ front ∧ second = front ++ x :: after := by
  rcases List.append_eq_append_iff.1 h with ⟨front, hbefore, hsecond⟩ | ⟨behind, hfirst, hrest⟩
  · exact .inr ⟨front, hbefore, hsecond⟩
  · cases behind with
    | nil => exact .inr ⟨[], by simpa using hfirst.symm, by simpa using hrest.symm⟩
    | cons y behind =>
      obtain ⟨rfl, -⟩ := List.cons.inj hrest
      exact .inl ⟨behind, hfirst⟩

theorem eq_of_singleton {α : Type} {before after : List α} {x y : α}
    (h : [y] = before ++ x :: after) : x = y :=
  List.mem_singleton.1 (h ▸ List.mem_append_right before List.mem_cons_self)

/-- An operation on exact operands fails only by dividing by zero. -/
theorem evaluate_of_whole_none {op : BinaryOp} {left right : Expr} {a b : Binary64} {i j : Int}
    (hdivide : op ≠ .divide) (hpower : op ≠ .power) (hleft : left.evaluate = .ok a)
    (hright : right.evaluate = .ok b) (hb : b.HasValue j) (hnone : op.whole? i j = none) :
    (binary op left right).evaluate = .error .divisionByZero := by
  have hzero : op.dividesByZero a b = true :=
    (BinaryOp.dividesByZero_of_whole hb hdivide hpower).2 hnone
  exact evaluate_binary_eq_error_iff.2 (.inr (.inr ⟨a, b, hleft, hright, if_pos hzero⟩))

/-- **The first part without an exact value is a division by zero**, and it is what is reported if
all parts before it are exact. -/
theorem evaluate_of_first_none {before after : List Expr} {node : Expr} (he : e.IsWhole)
    (hnodes : e.postOrder = before ++ node :: after)
    (hbefore : ∀ sub ∈ before, sub.HasExactValue) (hnone : node.whole? = none) :
    e.evaluate = .error .divisionByZero := by
  -- the node is in an operand, or all operands are exact and the last operation has no value
  induction e generalizing before after with
  | number value =>
    obtain rfl := eq_of_singleton hnodes
    obtain ⟨hfinite, k, hk⟩ := he
    rw [whole?_number ⟨hfinite, hk⟩] at hnone
    cases hnone
  | unary op operand ih =>
    obtain ⟨behind, hoperand⟩ | ⟨front, rfl, hlast⟩ := split_append hnodes
    case inl => exact evaluate_unary_eq_error_iff.2 (ih he hoperand hbefore)
    case inr =>
      obtain rfl := eq_of_singleton hlast
      rw [List.forall_mem_append] at hbefore
      have hoperand : operand.IsWhole := he
      obtain ⟨k, -, hk, -⟩ := evaluate_of_exact hoperand hbefore.1
      rw [whole?_unary hk] at hnone
      cases hnone
  | binary op left right ihl ihr =>
    obtain ⟨hdivide, hpower, hleft, hright⟩ := he
    obtain ⟨behind, hfirst⟩ | ⟨front, rfl, hrest⟩ := split_append hnodes
    case inl => exact evaluate_binary_eq_error_iff.2 (.inl (ihl hleft hfirst hbefore))
    case inr =>
      rw [List.forall_mem_append] at hbefore
      obtain ⟨i, a, hi, -, hea, ha⟩ := evaluate_of_exact hleft hbefore.1
      obtain ⟨behind, hsecond⟩ | ⟨front, rfl, hlast⟩ := split_append hrest
      case inl =>
        have herror := ihr hright hsecond hbefore.2
        exact evaluate_binary_eq_error_iff.2 (.inr (.inl ⟨a, hea, herror⟩))
      case inr =>
        rw [List.forall_mem_append] at hbefore
        obtain ⟨j, b, hj, -, heb, hb⟩ := evaluate_of_exact hright hbefore.2.1
        obtain rfl := eq_of_singleton hlast
        rw [whole?_binary hi hj] at hnone
        exact evaluate_of_whole_none hdivide hpower hea heb hb hnone

end Expr

/-- **Whole numbers are exact.**  An expression of whole numbers all of whose parts have exact
values not larger than `2 ^ 53` is evaluated to its exact value.  If the first part in post-order
without an exact value comes before any part that is too large, a division by zero is reported. -/
theorem evaluate_exact_on_whole_numbers {e : Expr} (he : e.IsWhole) :
    ((∀ sub ∈ e.postOrder, sub.HasExactValue) →
      ∃ n v, e.whole? = some n ∧ e.evaluate = .ok v ∧ v.isFinite = true ∧ v.toRat = n) ∧
    (∀ before node after, e.postOrder = before ++ node :: after →
      (∀ sub ∈ before, sub.HasExactValue) → node.whole? = none →
      e.evaluate = .error .divisionByZero) := by
  refine ⟨fun hparts => ?_, fun before node after hnodes hbefore hnone =>
    Expr.evaluate_of_first_none he hnodes hbefore hnone⟩
  obtain ⟨n, v, hn, -, hvalue, hv⟩ := Expr.evaluate_of_exact he hparts
  exact ⟨n, v, hn, hvalue, hv.isFinite, hv.toRat_eq⟩

/-- The quotient of the largest odd whole number by minus two is rounded down to a power of two; and
a remainder by zero is reported although a sum follows. -/
theorem evaluate_exact_on_whole_numbers_largest :
    let literal (n : Nat) := Expr.number (.ofRat false n)
    let quotient := Expr.binary .floorDivide
      (.binary .subtract (literal (2 ^ 53)) (literal 1)) (.unary .negate (literal 2))
    let remainder := Expr.binary .modulo (literal 7) (.binary .subtract (literal 3) (literal 3))
    let sum := Expr.binary .add remainder (literal 1)
    quotient.IsWhole ∧ (∀ sub ∈ quotient.postOrder, sub.HasExactValue) ∧
      (∃ v, quotient.evaluate = .ok v ∧ v.toRat = (-2 ^ 52 : Int)) ∧
      sum.IsWhole ∧ sum.postOrder = [literal 7, literal 3, literal 3,
        .binary .subtract (literal 3) (literal 3)] ++ remainder :: [literal 1, sum] ∧
      remainder.whole? = none ∧ sum.evaluate = .error .divisionByZero := by
  intro literal quotient remainder sum
  have hquotient : quotient.IsWhole := by decide +kernel
  have hparts : ∀ sub ∈ quotient.postOrder, sub.HasExactValue := by decide +kernel
  have hsum : sum.IsWhole := by decide +kernel
  have hbefore : ∀ sub ∈ [literal 7, literal 3, literal 3,
      .binary .subtract (literal 3) (literal 3)], sub.HasExactValue := by decide +kernel
  have hvalue : quotient.whole? = some (-2 ^ 52) := by decide +kernel
  have hnone : remainder.whole? = none := by decide +kernel
  have hnodes : sum.postOrder = [literal 7, literal 3, literal 3,
      .binary .subtract (literal 3) (literal 3)] ++ remainder :: [literal 1, sum] := by
    simp only [sum, remainder, literal, Expr.postOrder, List.cons_append, List.nil_append]
  obtain ⟨n, v, hn, hevaluate, -, hv⟩ := (evaluate_exact_on_whole_numbers hquotient).1 hparts
  obtain rfl := Option.some.inj (hvalue.symm.trans hn)
  exact ⟨hquotient, hparts, ⟨v, hevaluate, hv⟩, hsum, hnodes, hnone,
    (evaluate_exact_on_whole_numbers hsum).2 _ _ _ hnodes hbefore hnone⟩

end Calculator
