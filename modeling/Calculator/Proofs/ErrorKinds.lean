import Calculator.Proofs.Failure
import Calculator.Proofs.FirstFailure
import Calculator.Proofs.FullText
import Calculator.Proofs.Number.FloorDivision

/-!
# Which failure it is

An operation on finite numbers can fail in three ways, and which one is reported can be told from
the values of the operands.  A **division by zero** is one of the three divisions by zero, or zero
to a power below zero; **not a number** is only the power of a number below zero to an exponent that
is not whole.  All else has a finite value or overflows (`BinaryOp.apply_finite_or_overflow`).

What has to be excluded is that an undefined number comes up on the way.  The basic operations give
one only where infinities meet, or zeros in a division, and the quotient rounded down is the one
operation that goes on with a number that may have become infinite: it takes one off, takes the
whole part, and adds one, and an infinity stays what it is through all of them (`snapped_ne_nan`).
-/

namespace Calculator

namespace Magnitude

theorem isWhole_iff {m : Magnitude} : m.isWhole = true ↔ ∃ n : Nat, m.toRat = n := by
  have hone : (unitsPerOne : ℚ) ≠ 0 := by exact_mod_cast unitsPerOne_pos.ne'
  have hvalue (n : Nat) : m.toRat = n ↔ m.units = unitsPerOne * n := by
    rw [toRat_eq, div_eq_iff hone, mul_comm (n : ℚ)]
    exact_mod_cast Iff.rfl
  rw [isWhole, beq_iff_eq, ← Nat.dvd_iff_mod_eq_zero]
  exact exists_congr fun n => (hvalue n).symm

end Magnitude

namespace Binary64

variable {x y : Binary64} {a b : ℚ}

theorem HasValue.isWhole_iff (hx : x.HasValue a) : x.isWhole = true ↔ ∃ n : Int, a = n := by
  obtain ⟨negative, m, rfl⟩ := hx.exists_finite
  have hsize : |a| = m.toRat := by rw [← hx.toRat_eq, abs_toRat_finite]
  rw [isWhole, Magnitude.isWhole_iff, ← hsize]
  constructor
  · rintro ⟨n, hn⟩
    exact exists_intCast_of_abs hn
  · rintro ⟨n, rfl⟩
    exact ⟨n.natAbs, by rw [Nat.cast_natAbs, Int.cast_abs]⟩

/-! ## What is never undefined -/

theorem ofMagnitude_ne_nan (negative : Bool) (size : Option Magnitude) :
    ofMagnitude negative size ≠ nan := by
  cases size <;> simp [ofMagnitude]

theorem HasValue.ne_nan (hx : x.HasValue a) : x ≠ nan := by
  rintro rfl
  cases hx.isFinite

theorem Rounds.ne_nan (h : x.Rounds a) : x ≠ nan := by
  obtain ⟨zeroNegative, rfl⟩ := h
  exact ofMagnitude_ne_nan _ _

/-- **A finite summand leaves an infinity alone.** -/
theorem HasValue.add_ne_nan (hy : y.HasValue b) (h : x ≠ nan) : x + y ≠ nan := by
  cases x with
  | finite negative m => exact ((hasValue_toRat rfl).add hy).ne_nan
  | infinite negative =>
    obtain ⟨negative', m, rfl⟩ := hy.exists_finite
    exact fun h => nomatch h
  | nan => exact absurd rfl h

theorem floor_ne_nan (h : x ≠ nan) : x.floor ≠ nan := by
  cases x with
  | finite negative m => exact (hasValue_toRat rfl).floor.ne_nan
  | infinite negative => exact h
  | nan => exact absurd rfl h

/-- **Snapping keeps an infinity**, although the distance to the whole part is undefined there. -/
theorem snapped_ne_nan (h : x ≠ nan) : x.snapped ≠ nan := by
  have hbelow := floor_ne_nan h
  rw [snapped]
  split
  · exact hasValue_one.add_ne_nan hbelow
  · exact hbelow

/-- The dividend without the remainder is finite, so that its quotient is finite or infinite. -/
theorem HasValue.roughQuotient_ne_nan (hx : x.HasValue a) (hy : y.HasValue b) (hb : b ≠ 0) :
    x.roughQuotient y ≠ nan := by
  obtain ⟨n, ρ, hr, htruncated⟩ := hx.exists_rem hy hb
  have hsize : |a - ρ| ≤ |a| := htruncated.sub_eq ▸ htruncated.abs_mul_le
  obtain ⟨d, hd, -⟩ := hx.sub_near hr hx.representable hsize
  have hquotient := (hd.div hy hb).ne_nan
  simp only [roughQuotient]
  split
  · exact hasValue_one.neg.add_ne_nan hquotient
  · exact hquotient

/-- **The quotient rounded down is never undefined.** -/
theorem HasValue.floorDiv_ne_nan (hx : x.HasValue a) (hy : y.HasValue b) (hb : b ≠ 0) :
    x.floorDiv y ≠ nan := by
  rw [floorDiv_eq]
  split
  · exact fun h => nomatch h
  · exact snapped_ne_nan (hx.roughQuotient_ne_nan hy hb)

theorem HasValue.floorMod_ne_nan (hx : x.HasValue a) (hy : y.HasValue b) (hb : b ≠ 0) :
    x.floorMod y ≠ nan :=
  (hasValue_toRat (hx.floorMod_bounded hy hb).1).ne_nan

/-- **A power is undefined** for a base below zero and an exponent that is not whole, and only
there. -/
theorem HasValue.pow_eq_nan_iff (hx : x.HasValue a) (hy : y.HasValue b) :
    x.pow y = nan ↔ a < 0 ∧ ¬ ∃ n : Int, b = n := by
  have hnegative := hx.isNegative_iff
  have hwhole := hy.isWhole_iff
  have hexponent := hy.isZero_iff
  unfold pow
  split
  case isTrue hone =>
    refine iff_of_false (fun h => nomatch h) ?_
    rintro ⟨hbase, hbroken⟩
    rcases Bool.or_eq_true_iff.1 hone with hy0 | hx1
    · exact hbroken ⟨0, by rw [hexponent.1 hy0, Int.cast_zero]⟩
    · have hvalue : a = 1 := by
        rw [← hx.toRat_eq, beq_iff_eq.1 hx1]
        exact hasValue_one.toRat_eq
      rw [hvalue] at hbase
      exact absurd hbase (by norm_num)
  case isFalse =>
    obtain ⟨negative, m, rfl⟩ := hx.exists_finite
    obtain ⟨negative', m', rfl⟩ := hy.exists_finite
    rw [← hwhole, ← hnegative]
    by_cases hm : m.mantissa = 0
    case pos =>
      have hnonnegative : (finite negative m).isNegative = false := by
        simp [isNegative, isZero, hm]
      simp only [hm, if_true, powZero, hnonnegative]
      split <;> simp
    case neg =>
      have hsign : (finite negative m).isNegative = negative := by
        simp [isNegative, isZero, hm, signBit]
      simp only [if_neg hm, hsign]
      split
      case isTrue hundefined => simpa using hundefined
      case isFalse hdefined =>
        refine iff_of_false (ofMagnitude_ne_nan _ _) fun h => hdefined ?_
        simpa using h

end Binary64

/-! ## Operators -/

theorem checked_eq_notANumber_iff {x : Binary64} :
    checked x = .error .notANumber ↔ x = .nan := by
  cases x <;> simp [checked]

namespace BinaryOp

variable (op : BinaryOp) {x y : Binary64} {a b : ℚ}

/-- **The operators without a value because of a zero**: the three divisions by zero, and zero to a
power below zero. -/
def IsDivisionByZero (a b : ℚ) : Prop :=
  (op = divide ∨ op = floorDivide ∨ op = modulo) ∧ b = 0 ∨ op = power ∧ a = 0 ∧ b < 0

/-- **The operator without a real value**: the power of a number below zero to an exponent that is
not whole. -/
def IsUndefinedPower (a b : ℚ) : Prop :=
  op = power ∧ a < 0 ∧ ¬ ∃ n : Int, b = n

/-- The question asked before an operation is the question about the values. -/
theorem dividesByZero_iff (hx : x.HasValue a) (hy : y.HasValue b) :
    op.dividesByZero x y = true ↔ op.IsDivisionByZero a b := by
  cases op <;>
    simp [dividesByZero, IsDivisionByZero, hx.isZero_iff, hy.isZero_iff, hy.isNegative_iff]

/-- **Only a power can be undefined.** -/
theorem compute_eq_nan_iff (hx : x.HasValue a) (hy : y.HasValue b)
    (hdefined : ¬ op.IsDivisionByZero a b) : op.compute x y = .nan ↔ op.IsUndefinedPower a b := by
  cases op with
  | add => exact iff_of_false (hx.add hy).ne_nan fun h => nomatch h.1
  | subtract => exact iff_of_false (hx.sub hy).ne_nan fun h => nomatch h.1
  | multiply => exact iff_of_false (hx.mul hy).ne_nan fun h => nomatch h.1
  | divide =>
    have hb : b ≠ 0 := by simpa [IsDivisionByZero] using hdefined
    exact iff_of_false (hx.div hy hb).ne_nan fun h => nomatch h.1
  | floorDivide =>
    have hb : b ≠ 0 := by simpa [IsDivisionByZero] using hdefined
    exact iff_of_false (hx.floorDiv_ne_nan hy hb) fun h => nomatch h.1
  | modulo =>
    have hb : b ≠ 0 := by simpa [IsDivisionByZero] using hdefined
    exact iff_of_false (hx.floorMod_ne_nan hy hb) fun h => nomatch h.1
  | power =>
    rw [IsUndefinedPower, eq_self_iff_true, true_and]
    exact hx.pow_eq_nan_iff hy

theorem apply_eq_divisionByZero_iff (hx : x.HasValue a) (hy : y.HasValue b) :
    op.apply x y = .error .divisionByZero ↔ op.IsDivisionByZero a b := by
  rw [← op.dividesByZero_iff hx hy, apply]
  split
  case isTrue hzero => simp [hzero]
  case isFalse hzero =>
    refine iff_of_false (fun h => ?_) hzero
    cases hresult : op.compute x y <;> rw [hresult] at h <;> cases h

theorem apply_eq_notANumber_iff (hx : x.HasValue a) (hy : y.HasValue b) :
    op.apply x y = .error .notANumber ↔ op.IsUndefinedPower a b := by
  have hzero := op.dividesByZero_iff hx hy
  rw [apply]
  split
  case isTrue hdivides =>
    refine iff_of_false (by simp) ?_
    rintro ⟨rfl, hbase, -⟩
    obtain ⟨hdivision, -⟩ | ⟨-, rfl, -⟩ := hzero.1 hdivides
    · simp at hdivision
    · exact lt_irrefl _ hbase
  case isFalse hdivides =>
    exact checked_eq_notANumber_iff.trans (op.compute_eq_nan_iff hx hy (hzero.not.1 hdivides))

/-- **What is left** has a finite value or overflows. -/
theorem apply_finite_or_overflow (hx : x.HasValue a) (hy : y.HasValue b)
    (hdivision : ¬ op.IsDivisionByZero a b) (hpower : ¬ op.IsUndefinedPower a b) :
    (∃ v, op.apply x y = .ok v ∧ v.isFinite = true) ∨ op.apply x y = .error .overflow := by
  cases hresult : op.apply x y with
  | ok v => exact .inl ⟨v, rfl, isFinite_of_apply hresult⟩
  | error err =>
    rcases apply_eq_error hresult with rfl | rfl | rfl
    · exact absurd ((op.apply_eq_divisionByZero_iff hx hy).1 hresult) hdivision
    · exact absurd ((op.apply_eq_notANumber_iff hx hy).1 hresult) hpower
    · exact .inr rfl

/-- **A remainder never overflows.** -/
theorem apply_modulo (hx : x.HasValue a) (hy : y.HasValue b) (hb : b ≠ 0) :
    ∃ v, modulo.apply x y = .ok v ∧ v.isFinite = true := by
  have hfinite := (hx.floorMod_bounded hy hb).1
  refine ⟨x.floorMod y, ?_, hfinite⟩
  rw [apply, if_neg]
  · exact checked_eq_ok_iff.2 ⟨rfl, hfinite⟩
  · rw [dividesByZero_iff _ hx hy]
    simpa [IsDivisionByZero] using hb

end BinaryOp

/-! ## Expressions -/

namespace Expr

variable {e node : Expr}

/-- The node of a power whose base is below zero and whose exponent is not whole. -/
def IsUndefinedPower (e : Expr) : Prop :=
  ∃ left right a b, e = binary .power left right ∧ left.evaluate = .ok a ∧ right.evaluate = .ok b ∧
    a.toRat < 0 ∧ ¬ ∃ n : Int, b.toRat = n

theorem literals_subset_of_mem (h : node ∈ e.postOrder) : node.literals ⊆ e.literals := by
  induction e with
  | number value =>
    obtain rfl := List.mem_singleton.1 h
    exact List.Subset.refl _
  | unary op operand ih =>
    simp only [postOrder, List.mem_append, List.mem_singleton] at h
    obtain hmem | rfl := h
    · exact ih hmem
    · exact List.Subset.refl _
  | binary op left right ihl ihr =>
    simp only [postOrder, List.mem_append, List.mem_singleton] at h
    obtain hmem | hmem | rfl := h
    · exact List.subset_append_of_subset_left _ (ihl hmem)
    · exact List.subset_append_of_subset_right _ (ihr hmem)
    · exact List.Subset.refl _

/-- A node of finite literals that is not a number at this place is an undefined power. -/
theorem FailsHere.isUndefinedPower (h : node.FailsHere .notANumber)
    (hliterals : ∀ value ∈ node.literals, value.isFinite = true) : node.IsUndefinedPower := by
  cases h with
  | @number value _ hchecked =>
    have hfinite := hliterals value (List.mem_singleton.2 rfl)
    rw [checked_eq_notANumber_iff.1 hchecked] at hfinite
    cases hfinite
  | binary hleft ha hright hb happly =>
    obtain ⟨rfl, hbase, hexponent⟩ := (BinaryOp.apply_eq_notANumber_iff _
      (Binary64.hasValue_toRat ha) (Binary64.hasValue_toRat hb)).1 happly
    exact ⟨_, _, _, _, rfl, hleft, hright, hbase, hexponent⟩

theorem IsUndefinedPower.failsHere (h : e.IsUndefinedPower) : e.FailsHere .notANumber := by
  obtain ⟨left, right, a, b, rfl, hleft, hright, hbase, hexponent⟩ := h
  have ha := left.isFinite_of_evaluate hleft
  have hb := right.isFinite_of_evaluate hright
  exact .binary hleft ha hright hb ((BinaryOp.apply_eq_notANumber_iff _
    (Binary64.hasValue_toRat ha) (Binary64.hasValue_toRat hb)).2 ⟨rfl, hbase, hexponent⟩)

/-- **An expression of finite literals is not a number** if the first node that does not pass is an
undefined power. -/
theorem evaluate_eq_notANumber_iff (hliterals : ∀ value ∈ e.literals, value.isFinite = true) :
    e.evaluate = .error .notANumber ↔
      ∃ before node after, e.postOrder = before ++ node :: after ∧
        (∀ sub ∈ before, sub.HasFiniteValue) ∧ node.IsUndefinedPower := by
  rw [evaluate_eq_error_iff]
  constructor
  · rintro ⟨before, node, after, hnodes, hbefore, hfails⟩
    have hmem : node ∈ e.postOrder := by simp [hnodes]
    exact ⟨before, node, after, hnodes, hbefore, hfails.isUndefinedPower fun value hvalue =>
      hliterals value (literals_subset_of_mem hmem hvalue)⟩
  · rintro ⟨before, node, after, hnodes, hbefore, hpower⟩
    exact ⟨before, node, after, hnodes, hbefore, hpower.failsHere⟩

end Expr

/-- **Each failure has its own cause.**  At finite operands an operator divides by zero exactly if
it is a division by zero or zero to a power below zero; it is not a number exactly if it is a power
of a number below zero with an exponent that is not whole; and all else is finite or overflows, a
remainder by anything but zero always being finite.  So an expression of finite literals is not a
number exactly if the first node that does not pass is such a power. -/
theorem each_failure_has_its_cause :
    (∀ (op : BinaryOp) (x y : Binary64), x.isFinite = true → y.isFinite = true →
      (op.apply x y = .error .divisionByZero ↔
        (op = .divide ∨ op = .floorDivide ∨ op = .modulo) ∧ y.toRat = 0 ∨
          op = .power ∧ x.toRat = 0 ∧ y.toRat < 0) ∧
      (op.apply x y = .error .notANumber ↔
        op = .power ∧ x.toRat < 0 ∧ ¬ ∃ n : Int, y.toRat = n) ∧
      (op.apply x y ≠ .error .divisionByZero → op.apply x y ≠ .error .notANumber →
        (∃ v, op.apply x y = .ok v ∧ v.isFinite = true) ∨ op.apply x y = .error .overflow) ∧
      (op = .modulo → y.toRat ≠ 0 → ∃ v, op.apply x y = .ok v ∧ v.isFinite = true)) ∧
    (∀ e : Expr, (∀ value ∈ e.literals, value.isFinite = true) →
      (e.evaluate = .error .notANumber ↔
        ∃ before node after, e.postOrder = before ++ node :: after ∧
          (∀ sub ∈ before, sub.HasFiniteValue) ∧ node.IsUndefinedPower)) := by
  refine ⟨fun op x y hfinite hfinite' => ?_, fun e => Expr.evaluate_eq_notANumber_iff⟩
  have hx := Binary64.hasValue_toRat hfinite
  have hy := Binary64.hasValue_toRat hfinite'
  have hdivision := op.apply_eq_divisionByZero_iff hx hy
  have hpower := op.apply_eq_notANumber_iff hx hy
  refine ⟨hdivision, hpower, fun hne hne' => ?_, ?_⟩
  · exact op.apply_finite_or_overflow hx hy (hdivision.not.1 hne) (hpower.not.1 hne')
  · rintro rfl hb
    exact BinaryOp.apply_modulo hx hy hb

/-- The square root of minus one is not a number, also where a division by zero comes later; and a
quotient that is infinite before it is rounded down overflows. -/
theorem each_failure_has_its_cause_square_root :
    let root := Expr.binary .power (.unary .negate (.number .one)) (.number .half)
    let sum := Expr.binary .add root (.binary .divide (.number .one) (.number .zero))
    let large := Binary64.ofRat false (2 ^ (1000 : Nat))
    let small := Binary64.ofRat false (1 / 2 ^ (1000 : Nat))
    BinaryOp.power.apply Binary64.one.neg .half = .error .notANumber ∧
      BinaryOp.floorDivide.apply large small = .error .overflow ∧
      BinaryOp.divide.apply .one (.neg .zero) = .error .divisionByZero ∧
      (∃ v, BinaryOp.modulo.apply large small = .ok v ∧ v.isFinite = true) ∧
      sum.evaluate = .error .notANumber := by
  intro root sum large small
  have hbase : Binary64.one.neg.toRat < 0 := by decide +kernel
  have hbroken : ¬ ∃ n : Int, Binary64.half.toRat = n := by
    rw [Binary64.hasValue_half.toRat_eq]
    rintro ⟨n, hn⟩
    have hdouble : (1 : ℚ) = (2 * n : Int) := by
      push_cast
      linarith
    have hwhole : 1 = 2 * n := by exact_mod_cast hdouble
    omega
  have hzero : Binary64.zero.neg.toRat = 0 := by decide +kernel
  have hlarge : large.isFinite = true := by decide +kernel
  have hsmall : small.isFinite = true := by decide +kernel
  have hne : small.toRat ≠ 0 := by decide +kernel
  have hquotient : BinaryOp.floorDivide.apply large small = .error .overflow := by decide +kernel
  have hliterals : ∀ value ∈ sum.literals, value.isFinite = true := by decide +kernel
  obtain ⟨hoperators, hexpressions⟩ := each_failure_has_its_cause
  refine ⟨(hoperators .power (.neg .one) .half rfl rfl).2.1.2 ⟨rfl, hbase, hbroken⟩, hquotient,
    (hoperators .divide .one (.neg .zero) rfl rfl).1.2 (.inl ⟨.inl rfl, hzero⟩),
    (hoperators .modulo large small hlarge hsmall).2.2.2 rfl hne, ?_⟩
  refine (hexpressions sum hliterals).2 ⟨[.number .one, .unary .negate (.number .one),
    .number .half], root, [.number .one, .number .zero, .binary .divide (.number .one)
    (.number .zero), sum], rfl, ?_, _, _, _, _, rfl, rfl, rfl, hbase, hbroken⟩
  simp only [List.forall_mem_cons, List.not_mem_nil, false_implies, implies_true, and_true]
  exact ⟨⟨_, rfl, rfl⟩, ⟨_, rfl, rfl⟩, ⟨_, rfl, rfl⟩⟩

end Calculator
