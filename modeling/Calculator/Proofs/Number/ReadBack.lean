import Calculator.Number.Shortest

/-!
# The text of a number reads back

The full text of a number is promised to be read as that very number.  Two facts are behind it.
Rounding does nothing to a value that belongs to the format (`Magnitude.ofRat_toRat`), and every
decimal that `Magnitude.shortest` can choose has been checked to round to the number or else is its
exact value (`Magnitude.ofRat_shortest`).  No fact about digit counts is needed.
-/

namespace Calculator

attribute [local instance (2000)] instPowNat

/-! ## Values of the format -/

namespace Magnitude

theorem scaleOf_units (m : Magnitude) {den : Nat} (hden : 0 < den) :
    scaleOf (m.units * den) den = m.scale := by
  have hunits : m.units < 2 ^ (53 + m.scale) := by
    have hlt := (Nat.mul_lt_mul_right (Nat.two_pow_pos m.scale)).2 m.mantissa_lt
    rwa [Nat.mul_assoc, leadingBit_mul_two_pow, ← Nat.pow_add_one', ← Nat.add_right_comm] at hlt
  rw [scaleOf, Nat.mul_div_cancel _ hden]
  rcases m.normalized with hscale | hmantissa
  · rw [hscale] at hunits ⊢
    rcases Nat.eq_zero_or_pos m.units with hzero | hpos
    · simp [hzero]
    · have := (Nat.log2_lt (Nat.ne_of_gt hpos)).2 hunits
      omega
  · have hle : 2 ^ (52 + m.scale) ≤ m.units := by
      rw [← leadingBit_mul_two_pow]
      exact Nat.mul_le_mul_right _ hmantissa
    have hne : m.units ≠ 0 := Nat.ne_of_gt (Nat.lt_of_lt_of_le (Nat.two_pow_pos _) hle)
    have hbelow := (Nat.log2_lt hne).2 hunits
    have habove := (Nat.le_log2 hne).2 hle
    omega

/-- **Rounding leaves a value of the format alone.** -/
theorem nearest_units (m : Magnitude) {den : Nat} (hden : 0 < den) :
    nearest (m.units * den) den hden = some m := by
  have hround : roundQuotient (m.units * den) (den * 2 ^ m.scale) = m.mantissa := by
    rw [units, Nat.mul_assoc, Nat.mul_comm (2 ^ m.scale),
      roundQuotient_mul_left (Nat.mul_pos hden (Nat.two_pow_pos _))]
  simp only [nearest, scaleOf_units m hden, hround, m.mantissa_lt, m.scale_le, dite_true]

theorem ofRat_toRat (m : Magnitude) : ofRat m.toRat = some m := by
  have hcross : m.toRat.num * unitsPerOne = m.units * m.toRat.den := by
    rw [← Rat.mkRat_eq_iff m.toRat.den_nz (Nat.ne_of_gt unitsPerOne_pos), Rat.mkRat_self, toRat]
  have hnum : m.toRat.num.natAbs * unitsPerOne = m.units * m.toRat.den := by
    have habs := congrArg Int.natAbs hcross
    rwa [Int.natAbs_mul, Int.natAbs_mul, Int.natAbs_natCast, Int.natAbs_natCast,
      Int.natAbs_natCast] at habs
  simp only [ofRat, hnum, nearest_units]

theorem toRat_nonneg (m : Magnitude) : 0 ≤ m.toRat := by
  rw [toRat, ← Rat.divInt_ofNat]
  exact Rat.divInt_nonneg (Int.natCast_nonneg _) (Int.natCast_nonneg _)

end Magnitude

/-! ## The chosen decimal -/

theorem Decimal.toRat_nonneg (d : Decimal) : 0 ≤ d.toRat :=
  Rat.mul_nonneg Rat.natCast_nonneg (Rat.zpow_nonneg (by decide))

/-- Fives in the coefficient and tens below it leave twos below it. -/
theorem Decimal.toRat_fives (n places : Nat) :
    Decimal.toRat ⟨n * 5 ^ places, -places⟩ = mkRat n (2 ^ places) := by
  have hten : (10 : Rat) ^ places = 2 ^ places * 5 ^ places := by
    have : (10 : Nat) ^ places = 2 ^ places * 5 ^ places := by rw [← Nat.mul_pow]
    exact_mod_cast congrArg (Nat.cast : Nat → Rat) this
  have htwo : (2 : Rat) ^ places ≠ 0 := Rat.ne_of_gt (Rat.pow_pos (by decide))
  have hfive : (5 : Rat) ^ places ≠ 0 := Rat.ne_of_gt (Rat.pow_pos (by decide))
  rw [toRat, Rat.mkRat_eq_div, Rat.zpow_neg, Rat.zpow_natCast, hten]
  simp only [Rat.natCast_mul, Rat.natCast_pow, Rat.intCast_natCast]
  grind

namespace Magnitude

variable {m : Magnitude}

theorem exactDecimal_toRat (m : Magnitude) : m.exactDecimal.toRat = m.toRat := by
  have hexponent : (-1074 : Int) = -(1074 : Nat) := rfl
  rw [exactDecimal, hexponent, Decimal.toRat_fives m.units 1074, toRat, unitsPerOne]

theorem ofRat_withDigits {digits : Nat} {d : Decimal} (h : m.withDigits? digits = some d) :
    ofRat d.toRat = some m := by
  have hread : m.isReadFrom d = true := by
    simp only [withDigits?] at h
    split at h
    case isTrue habove =>
      cases h
      exact (Bool.and_eq_true_iff.1 habove).1
    case isFalse =>
      split at h
      case isTrue hbelow =>
        cases h
        exact hbelow
      case isFalse => cases h
  simpa [isReadFrom] using hread

/-- **The shortest decimal is read as the number**, whether the search finds it or falls back on the
exact value. -/
theorem ofRat_shortest (m : Magnitude) : ofRat m.shortest.toRat = some m := by
  rw [shortest]
  cases hfound : (List.range 17).findSome? fun n => m.withDigits? (n + 1) with
  | none => simpa [exactDecimal_toRat] using m.ofRat_toRat
  | some d =>
    obtain ⟨n, -, hn⟩ := List.exists_of_findSome?_eq_some hfound
    exact ofRat_withDigits hn

end Magnitude

theorem Binary64.ofRat_of_magnitude {q : Rat} {m : Magnitude} (hq : 0 ≤ q)
    (h : Magnitude.ofRat q = some m) : Binary64.ofRat false q = .finite false m := by
  have hsign : (if q = 0 then false else decide (q < 0)) = false := by
    simp [Rat.not_lt.2 hq]
  rw [ofRat, hsign, h, ofMagnitude]

end Calculator
