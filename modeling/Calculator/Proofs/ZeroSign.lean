import Calculator.Proofs.Number.FloorDivision
import Calculator.Proofs.Value

/-!
# The sign of zero

Zero comes with either sign, and both come up in a calculation: as a literal, by negation, by a
product, a remainder or a quotient that vanishes.  Nothing that can be seen depends on it.  Two
numbers are `Alike` if they are equal or both are zero, and the simulation goes by this relation: at
alike operands every operator has the same failure or alike values (`BinaryOp.apply_alike`), and so
has every expression, even if the zeros among its literals and its intermediate values take another
sign on the way (`Expr.evaluateWith_alike`).

For sums, products and quotients this is because they are computed from the values, and both zeros
have the same one.  Division rounded down and powers look at the second operand first: divisions
refuse both zeros there, and a power has the value one at both of them.  If it is not zero, it is
the same number in both runs, and the operator makes a zero of a zero.
-/

namespace Calculator

namespace Binary64

variable {x x' y y' : Binary64} {a b : ℚ}

/-! ## Numbers -/

/-- **Equal but for the sign of zero.** -/
inductive Alike : Binary64 → Binary64 → Prop where
  | refl (x : Binary64) : Alike x x
  | zeros {x x' : Binary64} : x.isZero = true → x'.isZero = true → Alike x x'

theorem alike_iff : x.Alike x' ↔ x.normalizeZero = x'.normalizeZero := by
  constructor
  · rintro (_ | ⟨hx, hx'⟩)
    · rfl
    · rw [normalizeZero_of_isZero hx, normalizeZero_of_isZero hx']
  · intro h
    have hzero : x.isZero = x'.isZero := by
      rw [← isZero_normalizeZero x, h, isZero_normalizeZero]
    cases hx : x.isZero with
    | true => exact .zeros hx (hzero ▸ hx)
    | false =>
      have hsame : x = x' := by simpa [normalizeZero, ← hzero, hx] using h
      exact hsame ▸ .refl x

theorem alike_normalizeZero (x : Binary64) : x.Alike x.normalizeZero := by
  rw [alike_iff, normalizeZero_normalizeZero]

theorem Alike.trans {z : Binary64} (h : x.Alike y) (h' : y.Alike z) : x.Alike z :=
  alike_iff.2 ((alike_iff.1 h).trans (alike_iff.1 h'))

theorem Alike.eq_of_isZero_eq_false (h : x.Alike x') (hne : x.isZero = false) : x = x' := by
  cases h with
  | refl => rfl
  | zeros hx =>
    rw [hx] at hne
    cases hne

theorem Alike.isZero_eq (h : x.Alike x') : x.isZero = x'.isZero := by
  cases h with
  | refl => rfl
  | zeros hx hx' => rw [hx, hx']

theorem Alike.isNegative_eq (h : x.Alike x') : x.isNegative = x'.isNegative := by
  cases h with
  | refl => rfl
  | zeros hx hx' => simp [isNegative, hx, hx']

theorem hasValue_of_isZero (h : x.isZero = true) : x.HasValue 0 := by
  cases x with
  | finite negative m => exact ⟨rfl, (hasValue_toRat rfl).isZero_iff.1 h⟩
  | infinite => cases h
  | nan => cases h

theorem Alike.hasValue (h : x.Alike x') (hx : x.HasValue a) : x'.HasValue a := by
  cases h with
  | refl => exact hx
  | zeros hzero hzero' =>
    rw [hx.isZero_iff.1 hzero]
    exact hasValue_of_isZero hzero'

theorem Rounds.alike (hx : x.Rounds a) (hx' : x'.Rounds a) : x.Alike x' := by
  rcases eq_or_ne a 0 with rfl | hne
  case inl =>
    have hzero := hx.hasValue hasValue_zero.representable
    have hzero' := hx'.hasValue hasValue_zero.representable
    exact .zeros (hzero.isZero_iff.2 rfl) (hzero'.isZero_iff.2 rfl)
  case inr =>
    obtain ⟨zeroNegative, rfl⟩ := hx
    obtain ⟨zeroNegative', rfl⟩ := hx'
    simp only [ofRat, if_neg hne]
    exact .refl _

/-- What makes a zero of every zero is alike at alike numbers. -/
theorem Alike.map {f : Binary64 → Binary64} (h : x.Alike x')
    (hzero : ∀ z, z.isZero = true → (f z).isZero = true) : (f x).Alike (f x') := by
  cases h with
  | refl => exact .refl _
  | zeros hx hx' => exact .zeros (hzero _ hx) (hzero _ hx')

/-! ## Operations -/

theorem HasValue.isZero_floorDiv (hy : y.HasValue b) (hb : b ≠ 0) (hx : x.isZero = true) :
    (x.floorDiv y).isZero = true := by
  have hquotient := (hasValue_of_isZero hx).floorDiv_of_le hy hb
  rw [zero_div, Int.floor_zero, Int.cast_zero, abs_zero] at hquotient
  exact (hquotient (by positivity)).isZero_iff.2 rfl

theorem HasValue.isZero_floorMod (hy : y.HasValue b) (hb : b ≠ 0) (hx : x.isZero = true) :
    (x.floorMod y).isZero = true := by
  have hrounded := (hasValue_of_isZero hx).correctlyRounded_floorMod hy hb
  rw [zero_div, Int.floor_zero, Int.cast_zero, mul_zero, sub_zero] at hrounded
  exact (hrounded.hasValue hasValue_zero.representable).isZero_iff.2 rfl

theorem HasValue.isZero_pow (hy : y.HasValue b) (hzero : y.isZero = false)
    (hnonnegative : y.isNegative = false) (hx : x.isZero = true) : (x.pow y).isZero = true := by
  have hone : (x == one) = false := by
    rw [beq_eq_false_iff_ne]
    rintro rfl
    cases hx
  obtain ⟨negative, m, rfl⟩ := (hasValue_of_isZero hx).exists_finite
  obtain ⟨negative', m', rfl⟩ := hy.exists_finite
  have hm : m.mantissa = 0 := by simpa [isZero] using hx
  unfold pow
  simp only [hzero, hone, hm, Bool.or_self, Bool.false_eq_true, if_false, if_true, powZero,
    hnonnegative]
  rfl

end Binary64

/-! ## Operators -/

/-- **Outcomes that are alike**: the same failure, or alike values. -/
inductive AlikeOutcome : Except EvalError Binary64 → Except EvalError Binary64 → Prop where
  | error (err : EvalError) : AlikeOutcome (.error err) (.error err)
  | ok {x x' : Binary64} : x.Alike x' → AlikeOutcome (.ok x) (.ok x')

variable {x x' y y' : Binary64}

theorem AlikeOutcome.map_eq {r r' : Except EvalError Binary64} (h : AlikeOutcome r r') :
    r.map Binary64.normalizeZero = r'.map Binary64.normalizeZero := by
  cases h with
  | error => rfl
  | ok halike => exact congrArg Except.ok (Binary64.alike_iff.1 halike)

theorem AlikeOutcome.bind {r r' : Except EvalError Binary64}
    {f f' : Binary64 → Except EvalError Binary64} (h : AlikeOutcome r r')
    (hf : ∀ x x', r = .ok x → x.Alike x' → AlikeOutcome (f x) (f' x')) :
    AlikeOutcome (r >>= f) (r' >>= f') := by
  cases h with
  | error err => exact .error err
  | ok halike => exact hf _ _ rfl halike

theorem AlikeOutcome.settle {r r' : Except EvalError Binary64} {settle : Binary64 → Binary64}
    (h : AlikeOutcome r r') (hsettle : ∀ x : Binary64, x.Alike (settle x)) :
    AlikeOutcome r (r' >>= fun x => .ok (settle x)) := by
  cases h with
  | error err => exact .error err
  | ok halike => exact .ok (halike.trans (hsettle _))

theorem checked_alike (h : x.Alike x') : AlikeOutcome (checked x) (checked x') := by
  cases h with
  | refl =>
    cases x with
    | finite => exact .ok (.refl _)
    | infinite | nan => exact .error _
  | zeros hx hx' =>
    rw [checked_eq_ok_iff.2 ⟨rfl, (Binary64.hasValue_of_isZero hx).isFinite⟩,
      checked_eq_ok_iff.2 ⟨rfl, (Binary64.hasValue_of_isZero hx').isFinite⟩]
    exact .ok (.zeros hx hx')

theorem UnaryOp.apply_alike (op : UnaryOp) (h : x.Alike x') : (op.apply x).Alike (op.apply x') := by
  cases op with
  | negate => exact h.map fun z hz => by rwa [apply, Binary64.isZero_neg]
  | identity => exact h

namespace BinaryOp

variable (op : BinaryOp) {a b : ℚ}

theorem dividesByZero_alike (hx : x.Alike x') (hy : y.Alike y') :
    op.dividesByZero x y = op.dividesByZero x' y' := by
  cases op <;> simp only [dividesByZero, hx.isZero_eq, hy.isZero_eq, hy.isNegative_eq]

theorem compute_alike (hx : x.HasValue a) (hy : y.HasValue b) (hx' : x.Alike x') (hy' : y.Alike y')
    (hdefined : op.dividesByZero x y = false) : (op.compute x y).Alike (op.compute x' y') := by
  have hxValue := hx'.hasValue hx
  have hyValue := hy'.hasValue hy
  cases op with
  | add => exact (hx.add hy).alike (hxValue.add hyValue)
  | subtract => exact (hx.sub hy).alike (hxValue.sub hyValue)
  | multiply => exact (hx.mul hy).alike (hxValue.mul hyValue)
  | divide =>
    have hb : b ≠ 0 := hy.isZero_eq_false_iff.1 hdefined
    exact (hx.div hy hb).alike (hxValue.div hyValue hb)
  | floorDivide =>
    obtain rfl := hy'.eq_of_isZero_eq_false hdefined
    exact hx'.map fun z => hy.isZero_floorDiv (hy.isZero_eq_false_iff.1 hdefined)
  | modulo =>
    obtain rfl := hy'.eq_of_isZero_eq_false hdefined
    exact hx'.map fun z => hy.isZero_floorMod (hy.isZero_eq_false_iff.1 hdefined)
  | power =>
    -- zero to the power of zero is one, so a zero base is kept only by the other exponents
    cases hzero : y.isZero with
    | true =>
      rw [compute, x.pow_of_isZero hzero, x'.pow_of_isZero (hy'.isZero_eq ▸ hzero)]
      exact .refl _
    | false =>
      obtain rfl := hy'.eq_of_isZero_eq_false hzero
      cases hx' with
      | refl => exact .refl _
      | zeros hbase hbase' =>
        have hnonnegative : y.isNegative = false := by simpa [dividesByZero, hbase] using hdefined
        have hpower (z : Binary64) : z.isZero = true → (z.pow y).isZero = true :=
          hy.isZero_pow hzero hnonnegative
        exact .zeros (hpower _ hbase) (hpower _ hbase')

/-- **At alike operands** an operator has the same failure or alike values. -/
theorem apply_alike (hx : x.isFinite = true) (hy : y.isFinite = true) (hx' : x.Alike x')
    (hy' : y.Alike y') : AlikeOutcome (op.apply x y) (op.apply x' y') := by
  rw [apply, apply, ← op.dividesByZero_alike hx' hy']
  split
  case isTrue => exact .error _
  case isFalse hdefined =>
    exact checked_alike (op.compute_alike (Binary64.hasValue_toRat hx) (Binary64.hasValue_toRat hy)
      hx' hy' (Bool.eq_false_of_not_eq_true hdefined))

end BinaryOp

/-! ## Expressions -/

namespace Expr

/-- **Expressions that differ in the signs of their zeros only.** -/
inductive Alike : Expr → Expr → Prop where
  | number {value value' : Binary64} : value.Alike value' → Alike (number value) (number value')
  | unary (op : UnaryOp) {operand operand' : Expr} :
    Alike operand operand' → Alike (unary op operand) (unary op operand')
  | binary (op : BinaryOp) {left left' right right' : Expr} :
    Alike left left' → Alike right right' → Alike (binary op left right) (binary op left' right')

/-- **The value of an expression when the value of each part is settled** as soon as it is
computed. -/
def evaluateWith (settle : Binary64 → Binary64) : Expr → Except EvalError Binary64
  | number value => return settle (← checked value)
  | unary op operand => return settle (op.apply (← operand.evaluateWith settle))
  | binary op left right => do
    let a ← left.evaluateWith settle
    let b ← right.evaluateWith settle
    return settle (← op.apply a b)

theorem evaluateWith_id (e : Expr) : e.evaluateWith id = e.evaluate := by
  induction e with
  | number value => simp [evaluateWith, evaluate]
  | unary op operand ih => simp [evaluateWith, evaluate, ih]
  | binary op left right ihl ihr => simp [evaluateWith, evaluate, ihl, ihr]

theorem Alike.refl (e : Expr) : e.Alike e := by
  induction e with
  | number value => exact .number (.refl value)
  | unary op operand ih => exact .unary op ih
  | binary op left right ihl ihr => exact .binary op ihl ihr

/-- **The simulation.**  Alike expressions have alike outcomes, also if the sign of zero is changed
in any part of one of them. -/
theorem evaluateWith_alike {settle : Binary64 → Binary64}
    (hsettle : ∀ x : Binary64, x.Alike (settle x)) {e e' : Expr} (h : e.Alike e') :
    AlikeOutcome e.evaluate (e'.evaluateWith settle) := by
  induction h with
  | number halike => exact (checked_alike halike).settle hsettle
  | unary op _ ih =>
    exact ih.bind fun x x' _ halike => .ok ((op.apply_alike halike).trans (hsettle _))
  | @binary op left left' right right' _ _ ihl ihr =>
    refine ihl.bind fun a a' hleft ha => ihr.bind fun b b' hright hb => ?_
    have hfinite := left.isFinite_of_evaluate hleft
    have hfinite' := right.isFinite_of_evaluate hright
    exact (op.apply_alike hfinite hfinite' ha hb).settle hsettle

end Expr

/-- **The sign of zero is not observable.**  If zeros among the literals of an expression are given
another sign, and if the sign of zero is taken off the value of every part as soon as it is
computed, the outcome is the same up to the sign of zero: the same failure or the same value. -/
theorem sign_of_zero_unobservable {e e' : Expr} (h : e.Alike e') :
    e'.evaluate.map Binary64.normalizeZero = e.evaluate.map Binary64.normalizeZero ∧
      (e'.evaluateWith Binary64.normalizeZero).map Binary64.normalizeZero =
        e.evaluate.map Binary64.normalizeZero := by
  have hsame := Expr.evaluateWith_alike (fun x => Binary64.Alike.refl (id x)) h
  have hsettled := Expr.evaluateWith_alike (fun x => x.alike_normalizeZero) h
  rw [Expr.evaluateWith_id] at hsame
  exact ⟨hsame.map_eq.symm, hsettled.map_eq.symm⟩

/-- Zero divided by minus one and rounded down is the negative zero, and the negative zero divided
by minus one is the positive one. -/
theorem sign_of_zero_unobservable_quotient :
    let quotient (zero : Binary64) :=
      Expr.binary .floorDivide (.number zero) (.unary .negate (.number .one))
    (quotient .zero).evaluate = .ok (.neg .zero) ∧ (quotient (.neg .zero)).evaluate = .ok .zero ∧
      (quotient (.neg .zero)).evaluate.map Binary64.normalizeZero =
        (quotient .zero).evaluate.map Binary64.normalizeZero ∧
      ((quotient (.neg .zero)).evaluateWith Binary64.normalizeZero).map Binary64.normalizeZero =
        (quotient .zero).evaluate.map Binary64.normalizeZero := by
  intro quotient
  have halike : (quotient .zero).Alike (quotient (.neg .zero)) :=
    .binary _ (.number (.zeros rfl rfl)) (.refl _)
  exact ⟨by decide +kernel, by decide +kernel, sign_of_zero_unobservable halike⟩

end Calculator
