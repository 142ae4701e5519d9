import Calculator.Number.Arithmetic
import Calculator.Proofs.Number.Nearest

/-!
# The values of sums, products, quotients and whole parts

A finite number has a rational value, and the basic operations are defined on these values: the
result is the rational result rounded to the format.  This module says what follows from that, so
that nothing behind it has to look at signs and mantissas again.

* `HasValue` is a finite number together with its value, `Representable` says that a rational is the
  value of some number.
* `CorrectlyRounded` is rounding as it is specified, by distances and not by a computation;
  `correctlyRounded_ofRat` says that the rounding of the library meets it wherever the format
  reaches.
* Every operation `Rounds` its exact result.  A representable result is therefore exact
  (`Rounds.hasValue`), and any other within the format has a relative error of at most one part in
  `2 ^ 53` (`Rounds.near`); for differences this needs no condition, since they are whole numbers of
  units (`HasValue.sub_near`).
-/

namespace Calculator

attribute [local instance (2000)] instPowNat

namespace Binary64

variable {x y v : Binary64} {m : Magnitude} {q a b c : ℚ}

/-! ## Values -/

/-- **A finite number and its value.** -/
structure HasValue (x : Binary64) (q : ℚ) : Prop where
  isFinite : x.isFinite = true
  toRat_eq : x.toRat = q

/-- **The rationals of the format.** -/
def Representable (q : ℚ) : Prop := ∃ v : Binary64, v.HasValue q

theorem hasValue_toRat (hfinite : x.isFinite = true) : x.HasValue x.toRat := ⟨hfinite, rfl⟩

theorem HasValue.representable (h : x.HasValue q) : Representable q := ⟨x, h⟩

theorem HasValue.exists_finite (h : x.HasValue q) : ∃ negative m, x = finite negative m := by
  cases x with
  | finite negative m => exact ⟨negative, m, rfl⟩
  | infinite => cases h.isFinite
  | nan => cases h.isFinite

@[simp] theorem toRat_positive (m : Magnitude) : (finite false m).toRat = m.toRat := by
  rw [toRat, if_neg Bool.false_ne_true]

@[simp] theorem toRat_negative (m : Magnitude) : (finite true m).toRat = -m.toRat := by
  rw [toRat, if_pos rfl]

theorem abs_toRat_finite (negative : Bool) (m : Magnitude) :
    |(finite negative m).toRat| = m.toRat := by
  cases negative <;> simp [abs_of_nonneg m.toRat_nonneg]

theorem HasValue.isZero_iff (h : x.HasValue q) : x.isZero = true ↔ q = 0 := by
  obtain ⟨negative, m, rfl⟩ := h.exists_finite
  have hmantissa : m.mantissa = 0 ↔ m = .zero := by
    rw [← Magnitude.units_eq_zero, Magnitude.units]
    simp
  rw [← h.toRat_eq, ← abs_eq_zero, abs_toRat_finite, ← Magnitude.toRat_zero, Magnitude.toRat_inj,
    ← hmantissa]
  simp [isZero]

theorem HasValue.isZero_eq_false_iff (h : x.HasValue q) : x.isZero = false ↔ q ≠ 0 := by
  rw [← Bool.not_eq_true, h.isZero_iff]

theorem HasValue.isNegative_iff (h : x.HasValue q) : x.isNegative = true ↔ q < 0 := by
  have hzero := h.isZero_iff
  obtain ⟨negative, m, rfl⟩ := h.exists_finite
  rw [isNegative, Bool.and_eq_true, Bool.not_eq_true', ← Bool.not_eq_true, hzero, ← h.toRat_eq]
  have hnonneg := m.toRat_nonneg
  cases negative with
  | false => simp [signBit, hnonneg.not_gt]
  | true => simp [signBit, hnonneg.lt_iff_ne, eq_comm]

theorem HasValue.neg (h : x.HasValue q) : x.neg.HasValue (-q) := by
  obtain ⟨negative, m, rfl⟩ := h.exists_finite
  refine ⟨rfl, ?_⟩
  rw [← h.toRat_eq]
  cases negative <;> simp [Binary64.neg]

theorem HasValue.lt_iff (hx : x.HasValue a) (hy : y.HasValue b) : x.lt y = true ↔ a < b := by
  obtain ⟨negative, m, rfl⟩ := hx.exists_finite
  obtain ⟨negative', m', rfl⟩ := hy.exists_finite
  rw [lt, decide_eq_true_iff, hx.toRat_eq, hy.toRat_eq]

theorem hasValue_zero : zero.HasValue 0 := ⟨rfl, toRat_zero⟩

theorem hasValue_one : one.HasValue 1 := ⟨rfl, by decide +kernel⟩

theorem hasValue_half : half.HasValue (1 / 2) := ⟨rfl, by decide +kernel⟩

/-- The floor of a rational keeps a whole bound. -/
theorem abs_floor_le {k : Int} (h : |q| ≤ k) : |⌊q⌋| ≤ k := by
  obtain ⟨hlow, hhigh⟩ := abs_le.1 h
  refine abs_le.2 ⟨Int.le_floor.2 (by exact_mod_cast hlow), ?_⟩
  exact_mod_cast (Int.floor_le q).trans hhigh

theorem exists_intCast_of_abs {n : Nat} (h : |q| = n) : ∃ k : Int, q = k := by
  rcases (abs_eq (Nat.cast_nonneg n)).1 h with rfl | rfl
  · exact ⟨n, rfl⟩
  · exact ⟨-n, by push_cast; rfl⟩

/-- **Whole numbers up to `2 ^ 53`** belong to the format. -/
theorem representable_intCast {n : Int} (h : |n| ≤ 2 ^ (53 : Nat)) : Representable n := by
  rw [← Int.natCast_natAbs] at h
  obtain ⟨m, hm⟩ := Magnitude.exists_toRat_eq_natCast (n := n.natAbs) (by exact_mod_cast h)
  rcases Int.natAbs_eq n with hn | hn
  · refine ⟨finite false m, rfl, ?_⟩
    rw [hn, toRat_positive, hm, Int.cast_natCast]
  · refine ⟨finite true m, rfl, ?_⟩
    rw [hn, toRat_negative, hm, Int.cast_neg, Int.cast_natCast]

theorem Representable.exists_units (h : Representable q) : ∃ k : Int, q * unitsPerOne = k := by
  obtain ⟨v, hv⟩ := h
  obtain ⟨negative, m, rfl⟩ := hv.exists_finite
  have hone : (unitsPerOne : ℚ) ≠ 0 := by exact_mod_cast unitsPerOne_pos.ne'
  have hunits : m.toRat * unitsPerOne = m.units := by
    rw [Magnitude.toRat_eq, div_mul_cancel₀ _ hone]
  rw [← hv.toRat_eq]
  cases negative with
  | false => exact ⟨m.units, by rw [toRat_positive, hunits, Int.cast_natCast]⟩
  | true =>
    exact ⟨-m.units, by rw [toRat_negative, neg_mul, hunits, Int.cast_neg, Int.cast_natCast]⟩

/-! ## Rounding -/

/-- Whether the last bit of the mantissa is not set. -/
def HasEvenMantissa : Binary64 → Prop
  | finite _ m => Even m.mantissa
  | _ => False

/-- **The correctly rounded value of a rational**: no number is nearer to it, and if another one is
as near, the one with the even mantissa is chosen. -/
structure CorrectlyRounded (v : Binary64) (q : ℚ) : Prop where
  nearest : v.IsNearest q
  even_of_equal : ∀ other : Binary64, other.isFinite = true → other.toRat ≠ v.toRat →
    |v.toRat - q| = |other.toRat - q| → v.HasEvenMantissa

theorem magnitude_ofRat_abs (q : ℚ) : Magnitude.ofRat |q| = Magnitude.ofRat q := by
  have hnum : |q|.num.natAbs = q.num.natAbs := by rw [Rat.num_abs_eq_abs_num, Int.natAbs_abs]
  have hden : |q|.den = q.den := by
    rcases abs_choice q with h | h <;> rw [h]
    exact Rat.neg_den q
  simp only [Magnitude.ofRat, hnum, hden]

theorem hasValue_ofRat (zeroNegative : Bool) (hm : Magnitude.ofRat q = some m) :
    (ofRat zeroNegative q).HasValue (if q < 0 then -m.toRat else m.toRat) := by
  rw [ofRat, hm, ofMagnitude]
  refine ⟨rfl, ?_⟩
  rcases eq_or_ne q 0 with rfl | hne
  · have hzero : m.toRat = 0 := by
      rw [← Magnitude.toRat_zero, Magnitude.ofRat_toRat] at hm
      rw [← Option.some.inj hm, Magnitude.toRat_zero]
    simp [toRat, hzero]
  · simp [toRat, hne]

theorem abs_toRat_ofRat_sub (zeroNegative : Bool) (hm : Magnitude.ofRat q = some m) :
    |(ofRat zeroNegative q).toRat - q| = |m.toRat - (|q|)| := by
  rw [(hasValue_ofRat zeroNegative hm).toRat_eq]
  split
  case isTrue hneg =>
    rw [abs_of_neg hneg, ← abs_neg]
    ring_nf
  case isFalse hnonneg => rw [abs_of_nonneg (not_lt.1 hnonneg)]

theorem abs_toRat_sub_abs_le (negative : Bool) (m : Magnitude) (q : ℚ) :
    |m.toRat - (|q|)| ≤ |(finite negative m).toRat - q| := by
  rw [← abs_toRat_finite negative m]
  exact abs_abs_sub_abs_le _ _

/-- A number and its opposite are as near to a rational only if there is nothing to choose. -/
theorem eq_opposite_of_equal (zeroNegative : Bool) (hm : Magnitude.ofRat q = some m)
    (negative : Bool)
    (hequal : |(ofRat zeroNegative q).toRat - q| = |(finite negative m).toRat - q|) :
    (finite negative m).toRat = (ofRat zeroNegative q).toRat := by
  have hvalue := (hasValue_ofRat zeroNegative hm).toRat_eq
  have hopposite : (finite negative m).toRat = (ofRat zeroNegative q).toRat ∨
      (finite negative m).toRat = -(ofRat zeroNegative q).toRat := by
    refine abs_eq_abs.1 ?_
    rw [abs_toRat_finite, hvalue]
    split <;> simp [abs_of_nonneg m.toRat_nonneg]
  refine hopposite.elim id fun hneg => ?_
  rw [hneg] at hequal ⊢
  rcases abs_eq_abs.1 hequal with hsame | hflip
  · linarith
  · have hzero : q = 0 := by linarith
    subst hzero
    rw [← Magnitude.toRat_zero, Magnitude.ofRat_toRat] at hm
    rw [hvalue, ← Option.some.inj hm]
    simp

/-- **The rounding of the library is correct rounding.** -/
theorem correctlyRounded_ofRat (zeroNegative : Bool) (hm : Magnitude.ofRat q = some m) :
    (ofRat zeroNegative q).CorrectlyRounded q := by
  have hvalue := hasValue_ofRat zeroNegative hm
  have hdistance := abs_toRat_ofRat_sub zeroNegative hm
  have hm' := hm
  rw [← magnitude_ofRat_abs] at hm'
  have hnearest := Magnitude.abs_toRat_sub_le (abs_nonneg q) hm'
  refine ⟨⟨hvalue.isFinite, fun other hother => ?_⟩, fun other hother hne hequal => ?_⟩
  case refine_1 =>
    obtain ⟨negative, m', rfl⟩ := (hasValue_toRat hother).exists_finite
    rw [hdistance]
    exact (hnearest m').trans (abs_toRat_sub_abs_le negative m' q)
  case refine_2 =>
    obtain ⟨negative, m', rfl⟩ := (hasValue_toRat hother).exists_finite
    by_cases hsame : m = m'
    case pos =>
      subst hsame
      exact absurd (eq_opposite_of_equal zeroNegative hm negative hequal) hne
    case neg =>
      have hsizes : |m.toRat - (|q|)| = |m'.toRat - (|q|)| := by
        refine le_antisymm (hnearest m') ?_
        rw [← hdistance, hequal]
        exact abs_toRat_sub_abs_le negative m' q
      have heven := Magnitude.even_mantissa_of_toRat_equal (abs_nonneg q) hm' hsame hsizes
      rwa [ofRat, hm, ofMagnitude]

theorem CorrectlyRounded.hasValue (h : v.CorrectlyRounded q) (hq : Representable q) :
    v.HasValue q := by
  obtain ⟨w, hw⟩ := hq
  have hdistance := h.nearest.2 w hw.isFinite
  rw [hw.toRat_eq, sub_self, abs_zero] at hdistance
  exact ⟨h.nearest.1, sub_eq_zero.1 (abs_nonpos_iff.1 hdistance)⟩

theorem HasValue.correctlyRounded (h : v.HasValue q) : v.CorrectlyRounded q := by
  have hdistance : |v.toRat - q| = 0 := by rw [h.toRat_eq, sub_self, abs_zero]
  refine ⟨⟨h.isFinite, fun other _ => hdistance ▸ abs_nonneg _⟩, fun other _ hne hequal => ?_⟩
  rw [hdistance, eq_comm, abs_eq_zero, sub_eq_zero, ← h.toRat_eq] at hequal
  exact absurd hequal hne

/-- Correct rounding does not pass a number of the format. -/
theorem CorrectlyRounded.abs_le (h : v.CorrectlyRounded q) (hb : Representable b)
    (hle : |q| ≤ |b|) : |v.toRat| ≤ |b| := by
  -- the bound with the sign of the rational is as near as the two sizes are
  obtain ⟨w, hw, hsize⟩ : ∃ w : Binary64, w.isFinite = true ∧ |w.toRat - q| = |b| - |q| := by
    obtain ⟨bound, hbound⟩ := hb
    rcases abs_choice q with hq | hq <;> rcases abs_choice b with hb | hb
    · exact ⟨bound, hbound.isFinite, by rw [hbound.toRat_eq, abs_of_nonneg] <;> linarith⟩
    · exact ⟨bound.neg, hbound.neg.isFinite, by
        rw [hbound.neg.toRat_eq, abs_of_nonneg] <;> linarith⟩
    · exact ⟨bound.neg, hbound.neg.isFinite, by
        rw [hbound.neg.toRat_eq, abs_of_nonpos] <;> linarith⟩
    · exact ⟨bound, hbound.isFinite, by rw [hbound.toRat_eq, abs_of_nonpos] <;> linarith⟩
  have hnearest := h.nearest.2 w hw
  have htriangle := abs_sub_abs_le_abs_sub v.toRat q
  linarith

theorem CorrectlyRounded.toRat_mul_nonneg (h : v.CorrectlyRounded q) : 0 ≤ v.toRat * q := by
  have hnearest := h.nearest.2 zero rfl
  rw [toRat_zero, zero_sub, abs_neg] at hnearest
  by_contra hneg
  have hsquare := sq_le_sq.2 hnearest
  nlinarith [sq_nonneg v.toRat]

/-- **The format reaches** every rational that is not larger than one of its numbers. -/
theorem exists_ofRat_of_abs_le (hb : Representable b) (hle : |q| ≤ |b|) :
    ∃ m, Magnitude.ofRat q = some m := by
  obtain ⟨v, hv⟩ := hb
  obtain ⟨negative, bound, rfl⟩ := hv.exists_finite
  rw [← hv.toRat_eq, abs_toRat_finite] at hle
  rw [← magnitude_ofRat_abs]
  exact Magnitude.exists_ofRat (abs_nonneg q) hle

/-! ## The operations -/

/-- **What an operation comes to**: its exact result, rounded to the format.  The sign of a result
that is zero is left open. -/
def Rounds (v : Binary64) (q : ℚ) : Prop := ∃ zeroNegative, v = ofRat zeroNegative q

theorem HasValue.add (hx : x.HasValue a) (hy : y.HasValue b) : (x + y).Rounds (a + b) := by
  obtain ⟨negative, m, rfl⟩ := hx.exists_finite
  obtain ⟨negative', m', rfl⟩ := hy.exists_finite
  rw [← hx.toRat_eq, ← hy.toRat_eq]
  exact ⟨_, rfl⟩

theorem HasValue.sub (hx : x.HasValue a) (hy : y.HasValue b) : (x - y).Rounds (a - b) := by
  rw [sub_eq_add_neg a b]
  exact hx.add hy.neg

theorem HasValue.mul (hx : x.HasValue a) (hy : y.HasValue b) : (x * y).Rounds (a * b) := by
  obtain ⟨negative, m, rfl⟩ := hx.exists_finite
  obtain ⟨negative', m', rfl⟩ := hy.exists_finite
  rw [← hx.toRat_eq, ← hy.toRat_eq]
  exact ⟨_, rfl⟩

theorem HasValue.div (hx : x.HasValue a) (hy : y.HasValue b) (hb : b ≠ 0) :
    (x / y).Rounds (a / b) := by
  have hzero := hy.isZero_eq_false_iff.2 hb
  obtain ⟨negative, m, rfl⟩ := hx.exists_finite
  obtain ⟨negative', m', rfl⟩ := hy.exists_finite
  have hmantissa : m'.mantissa ≠ 0 := by simpa [isZero] using hzero
  rw [← hx.toRat_eq, ← hy.toRat_eq]
  exact ⟨_, if_neg hmantissa⟩

theorem Rounds.correctlyRounded (h : v.Rounds q) (hb : Representable b) (hle : |q| ≤ |b|) :
    v.CorrectlyRounded q := by
  obtain ⟨zeroNegative, rfl⟩ := h
  obtain ⟨m, hm⟩ := exists_ofRat_of_abs_le hb hle
  exact correctlyRounded_ofRat zeroNegative hm

/-- **A representable result is exact.** -/
theorem Rounds.hasValue (h : v.Rounds q) (hq : Representable q) : v.HasValue q :=
  (h.correctlyRounded hq le_rfl).hasValue hq

/-- **The relative error of a result** within the format: one part in `2 ^ 53`, for normal numbers
and for whole numbers of units. -/
theorem Rounds.near (h : v.Rounds q) (hb : Representable b) (hle : |q| ≤ |b|)
    (hq : 2 ^ (-1022 : Int) ≤ |q| ∨ ∃ k : Int, q * unitsPerOne = k) :
    ∃ e, v.HasValue e ∧ |e - q| ≤ |q| / 2 ^ (53 : Nat) := by
  obtain ⟨zeroNegative, rfl⟩ := h
  obtain ⟨m, hm⟩ := exists_ofRat_of_abs_le hb hle
  have hfinite := (hasValue_ofRat zeroNegative hm).isFinite
  refine ⟨_, hasValue_toRat hfinite, ?_⟩
  rw [abs_toRat_ofRat_sub zeroNegative hm]
  rw [← magnitude_ofRat_abs] at hm
  rcases hq with hnormal | ⟨k, hk⟩
  · exact Magnitude.abs_toRat_sub_le_div hnormal hm
  · have hunits : |q| * unitsPerOne = k.natAbs := by
      rw [Nat.cast_natAbs, Int.cast_abs, ← hk, abs_mul, Nat.abs_cast]
    exact Magnitude.abs_toRat_sub_le_div_of_units hunits hm

/-- **A difference within the format** always has this relative error, since it is a whole number of
units. -/
theorem HasValue.sub_near (hx : x.HasValue a) (hy : y.HasValue b) (hc : Representable c)
    (hle : |a - b| ≤ |c|) :
    ∃ e, (x - y).HasValue e ∧ |e - (a - b)| ≤ |a - b| / 2 ^ (53 : Nat) := by
  obtain ⟨k, hk⟩ := hx.representable.exists_units
  obtain ⟨k', hk'⟩ := hy.representable.exists_units
  have hunits : (a - b) * unitsPerOne = (k - k' : Int) := by
    rw [sub_mul, hk, hk']
    push_cast
    rfl
  exact (hx.sub hy).near hc hle (.inr ⟨k - k', hunits⟩)

/-! ## Whole parts -/

/-- A magnitude is a whole number, or is not above `2 ^ 53`. -/
theorem magnitude_whole_or_small (m : Magnitude) :
    (∃ n : Nat, m.toRat = n) ∨ m.toRat ≤ 2 ^ (53 : Nat) := by
  have hone : (0 : ℚ) < unitsPerOne := by exact_mod_cast unitsPerOne_pos
  rcases Nat.lt_or_ge m.scale 1074 with hsmall | hlarge
  case inr =>
    obtain ⟨places, hplaces⟩ : ∃ places, m.scale = places + 1074 := ⟨m.scale - 1074, by omega⟩
    refine .inl ⟨m.mantissa * 2 ^ places, ?_⟩
    rw [Magnitude.toRat_eq, Magnitude.units, hplaces, Nat.pow_add, ← unitsPerOne, ← Nat.mul_assoc,
      Nat.cast_mul, mul_div_cancel_right₀ _ hone.ne']
  case inl =>
    refine .inr ?_
    have hsplit : unitsPerOne = 2 ^ (1074 - m.scale) * 2 ^ m.scale := by
      rw [← Nat.pow_add, Nat.sub_add_cancel hsmall.le, unitsPerOne]
    have hscale : 2 ^ m.scale ≤ unitsPerOne :=
      hsplit ▸ Nat.le_mul_of_pos_left _ (Nat.two_pow_pos _)
    have hunits : m.units ≤ 2 ^ 53 * unitsPerOne := Nat.mul_le_mul m.mantissa_lt.le hscale
    rw [Magnitude.toRat_eq, div_le_iff₀ hone]
    exact_mod_cast hunits

/-- The whole part of a number belongs to the format, since what is too large for a mantissa is
whole. -/
theorem HasValue.representable_floor (hx : x.HasValue a) : Representable (⌊a⌋ : ℚ) := by
  have hrepresentable := hx.representable
  obtain ⟨negative, m, rfl⟩ := hx.exists_finite
  have hsize : |a| = m.toRat := by rw [← hx.toRat_eq, abs_toRat_finite]
  rcases magnitude_whole_or_small m with ⟨n, hn⟩ | hsmall
  case inl =>
    rw [hn] at hsize
    obtain ⟨k, rfl⟩ := exists_intCast_of_abs hsize
    rwa [Int.floor_intCast]
  case inr =>
    exact representable_intCast (abs_floor_le (by exact_mod_cast hsize.trans_le hsmall))

/-- **The whole part is exact.** -/
theorem HasValue.floor (hx : x.HasValue a) : x.floor.HasValue (⌊a⌋ : ℚ) := by
  have hrepresentable := hx.representable_floor
  obtain ⟨negative, m, rfl⟩ := hx.exists_finite
  have hfloor : (finite negative m).toRat.floor = ⌊a⌋ := by rw [hx.toRat_eq]; rfl
  have hrounds : (finite negative m).floor.Rounds (⌊a⌋ : ℚ) :=
    ⟨negative, by rw [Binary64.floor, hfloor]⟩
  exact hrounds.hasValue hrepresentable

end Binary64

end Calculator
