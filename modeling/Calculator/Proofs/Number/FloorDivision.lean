import Calculator.Proofs.Number.Operations

/-!
# Division rounded down

`floorMod` and `floorDiv` start from the remainder of division rounded toward zero, which is exact,
and turn it into division rounded down.  `floorMod` adds the divisor once if the remainder points
away from it; that is the one rounding there is, so the result is the correctly rounded remainder.

`floorDiv` goes through numbers that are rounded, and yet the whole number that comes out is the
right one.  The dividend without the remainder is a multiple of the divisor up to one rounding, so
the quotient is the whole quotient up to two, and up to three after the step from truncation to the
floor.  Each of them is one part in `2 ^ 53`, so for quotients up to `2 ^ 50` the three together
stay below two fifths (`roughQuotient_near`), and the nearer of the two whole numbers around is the
floor (`snapped_of_near`).
-/

namespace Calculator

attribute [local instance (2000)] instPowNat

/-! ## Remainders of whole numbers of units -/

/-- The remainder of two magnitudes belongs to the format: on the finer of the two grids it is
smaller than one of the two mantissas. -/
theorem Magnitude.exists_units_mod (m m' : Magnitude) (hne : m'.units ≠ 0) :
    ∃ r : Magnitude, r.units = m.units % m'.units := by
  rcases Nat.le_total m'.scale m.scale with hfine | hcoarse
  case inl =>
    have hunits : m.units = m.mantissa * 2 ^ (m.scale - m'.scale) * 2 ^ m'.scale := by
      rw [Nat.mul_assoc, Nat.pow_sub_mul_pow 2 hfine, units]
    have hpositive : 0 < m'.mantissa := Nat.pos_of_ne_zero fun hzero =>
      hne (by rw [units, hzero, Nat.zero_mul])
    rw [hunits, units, Nat.mul_mod_mul_right]
    exact exists_units_eq ((Nat.mod_lt _ hpositive).trans m'.mantissa_lt) m'.scale_le
  case inr =>
    have hunits : m'.units = m'.mantissa * 2 ^ (m'.scale - m.scale) * 2 ^ m.scale := by
      rw [Nat.mul_assoc, Nat.pow_sub_mul_pow 2 hcoarse, units]
    rw [hunits, units, Nat.mul_mod_mul_right]
    exact exists_units_eq ((Nat.mod_le _ _).trans_lt m.mantissa_lt) m.scale_le

/-- **The remainder of two magnitudes** is exact. -/
theorem Magnitude.exists_rem (m m' : Magnitude) (hne : m'.units ≠ 0) :
    ∃ (k : Nat) (r : Magnitude), nearest (m.units % m'.units) 1 Nat.one_pos = some r ∧
      m.toRat = k * m'.toRat + r.toRat ∧ r.toRat < m'.toRat := by
  have hone : (0 : ℚ) < unitsPerOne := by exact_mod_cast unitsPerOne_pos
  obtain ⟨r, hr⟩ := exists_units_mod m m' hne
  refine ⟨m.units / m'.units, r, ?_, ?_, ?_⟩
  · rw [← hr, ← Nat.mul_one r.units]
    exact nearest_units r Nat.one_pos
  · have hsplit : (m.units : ℚ) = (m.units / m'.units : Nat) * m'.units + r.units := by
      rw [hr]
      exact_mod_cast (Nat.div_add_mod' m.units m'.units).symm
    rw [toRat_eq, toRat_eq, toRat_eq, hsplit]
    ring
  · rw [toRat_eq, toRat_eq, hr]
    refine div_lt_div_of_pos_right ?_ hone
    exact_mod_cast Nat.mod_lt m.units (Nat.pos_of_ne_zero hne)

/-! ## Truncation and floor -/

/-- **Division rounded toward zero**: the multiple of the divisor and the remainder point the same
way, so that their sizes add up. -/
structure Truncated (a b : ℚ) (n : Int) (r : ℚ) : Prop where
  split : a = n * b + r
  small : |r| < |b|
  sizes : |a| = |n * b| + |r|

namespace Truncated

variable {a b r : ℚ} {n : Int}

theorem sub_eq (h : Truncated a b n r) : a - r = n * b := by
  rw [h.split, add_sub_cancel_right]

theorem abs_mul_le (h : Truncated a b n r) : |n * b| ≤ |a| := by
  rw [h.sizes]
  exact le_add_of_nonneg_right (abs_nonneg r)

theorem ne_zero (h : Truncated a b n r) : b ≠ 0 :=
  abs_pos.1 ((abs_nonneg r).trans_lt h.small)

theorem abs_quotient_le (h : Truncated a b n r) : |(n : ℚ)| ≤ |a / b| := by
  rw [abs_div, le_div_iff₀ (abs_pos.2 h.ne_zero), ← abs_mul]
  exact h.abs_mul_le

/-- **From truncation to the floor** it is one step down if the remainder points away from the
divisor, and none if not. -/
theorem floor_eq (h : Truncated a b n r) : ⌊a / b⌋ = if r * b < 0 then n - 1 else n := by
  have hb := h.ne_zero
  have hquotient : a / b = n + r / b := by
    rw [h.split, add_div, mul_div_cancel_right₀ _ hb]
  have hsize : |r / b| < 1 := by
    rw [abs_div, div_lt_one (abs_pos.2 hb)]
    exact h.small
  obtain ⟨hlow, hhigh⟩ := abs_lt.1 hsize
  have hsign : r * b = r / b * (b * b) := by field_simp
  have hsquare : 0 < b * b := mul_self_pos.2 hb
  split
  case isTrue hneg =>
    rw [hsign] at hneg
    have hbelow : r / b < 0 := neg_of_mul_neg_left hneg hsquare.le
    rw [Int.floor_eq_iff, hquotient]
    push_cast
    constructor <;> linarith
  case isFalse hnonneg =>
    rw [hsign] at hnonneg
    have habove : 0 ≤ r / b := nonneg_of_mul_nonneg_left (not_lt.1 hnonneg) hsquare
    rw [Int.floor_eq_iff, hquotient]
    constructor <;> linarith

end Truncated

theorem sub_mul_floor_mul_nonneg {b : ℚ} (hb : b ≠ 0) (a : ℚ) : 0 ≤ (a - b * ⌊a / b⌋) * b := by
  have hfloor := Int.floor_le (a / b)
  have hsplit : (a - b * ⌊a / b⌋) * b = (a / b - ⌊a / b⌋) * (b * b) := by field_simp
  rw [hsplit]
  exact mul_nonneg (sub_nonneg.2 hfloor) (mul_self_nonneg b)

theorem abs_sub_mul_floor_lt {b : ℚ} (hb : b ≠ 0) (a : ℚ) : |a - b * ⌊a / b⌋| < |b| := by
  have hlow := Int.floor_le (a / b)
  have hhigh := Int.lt_floor_add_one (a / b)
  have hsplit : a - b * ⌊a / b⌋ = b * (a / b - ⌊a / b⌋) := by field_simp
  rw [hsplit, abs_mul]
  refine mul_lt_of_lt_one_right (abs_pos.2 hb) (abs_lt.2 ?_)
  constructor <;> linarith

namespace Binary64

variable {x y r v q : Binary64} {a b c e : ℚ} {n : Int}

/-! ## The remainder -/

/-- **The remainder is that of division rounded toward zero**, and exact. -/
theorem HasValue.exists_rem (hx : x.HasValue a) (hy : y.HasValue b) (hb : b ≠ 0) :
    ∃ n ρ, (x.rem y).HasValue ρ ∧ Truncated a b n ρ := by
  have hzero := hy.isZero_eq_false_iff.2 hb
  obtain ⟨negative, m, rfl⟩ := hx.exists_finite
  obtain ⟨negative', m', rfl⟩ := hy.exists_finite
  have hmantissa : m'.mantissa ≠ 0 := by simpa [isZero] using hzero
  have hunits : m'.units ≠ 0 := by simpa [Magnitude.units] using hmantissa
  obtain ⟨k, r, hrem, hsplit, hless⟩ := Magnitude.exists_rem m m' hunits
  have hvalue : (finite negative m).rem (finite negative' m') = finite negative r := by
    rw [rem, if_neg hmantissa, hrem, ofMagnitude]
  have hr := r.toRat_nonneg
  have hproduct : 0 ≤ k * m'.toRat := mul_nonneg (Nat.cast_nonneg k) m'.toRat_nonneg
  refine ⟨if negative = negative' then k else -k, (finite negative r).toRat,
    by rw [hvalue]; exact hasValue_toRat rfl, ?_, ?_, ?_⟩
  · rw [← hx.toRat_eq, ← hy.toRat_eq]
    cases negative <;> cases negative' <;> simp [toRat, hsplit] <;> ring
  · rw [← hy.toRat_eq, abs_toRat_finite, abs_toRat_finite]
    exact hless
  · have hquotient : |((if negative = negative' then k else -k : Int) : ℚ)| = k := by
      split <;> simp
    rw [← hx.toRat_eq, ← hy.toRat_eq, abs_mul, hquotient, abs_toRat_finite, abs_toRat_finite,
      abs_toRat_finite, hsplit]

/-- Whether a remainder that is not zero points away from the divisor. -/
def pointsAway (r y : Binary64) : Bool := !r.isZero && r.isNegative != y.isNegative

theorem HasValue.pointsAway_iff (hr : r.HasValue a) (hy : y.HasValue b) (hb : b ≠ 0) :
    r.pointsAway y = true ↔ a * b < 0 := by
  have hzero := hr.isZero_iff
  have hnegative := hr.isNegative_iff
  have hnegative' := hy.isNegative_iff
  rw [pointsAway, Bool.and_eq_true, Bool.not_eq_true', ← Bool.not_eq_true, hzero, bne_iff_ne, ne_eq,
    Bool.eq_iff_iff, hnegative, hnegative', mul_neg_iff]
  rcases lt_trichotomy a 0 with ha | rfl | ha
  · rcases lt_or_gt_of_ne hb with hb | hb <;> simp [ha, hb, ha.ne, ha.not_gt, hb.not_gt]
  · simp
  · rcases lt_or_gt_of_ne hb with hb | hb <;> simp [ha, hb, ha.ne', ha.not_gt, hb.not_gt]

/-! ## The remainder of division rounded down -/

theorem floorMod_eq (x y : Binary64) :
    x.floorMod y = if (x.rem y).pointsAway y then x.rem y + y else x.rem y := rfl

/-- **The remainder of division rounded down is correctly rounded.** -/
theorem HasValue.correctlyRounded_floorMod (hx : x.HasValue a) (hy : y.HasValue b) (hb : b ≠ 0) :
    (x.floorMod y).CorrectlyRounded (a - b * ⌊a / b⌋) := by
  obtain ⟨n, ρ, hr, htruncated⟩ := hx.exists_rem hy hb
  have haway := hr.pointsAway_iff hy hb
  have hbound := (abs_sub_mul_floor_lt hb a).le
  have hsplit := htruncated.split
  rw [floorMod_eq]
  by_cases hneg : ρ * b < 0
  case pos =>
    have hexact : a - b * ⌊a / b⌋ = ρ + b := by
      rw [htruncated.floor_eq, if_pos hneg, hsplit]
      push_cast
      ring
    rw [if_pos (haway.2 hneg), hexact]
    rw [hexact] at hbound
    exact (hr.add hy).correctlyRounded hy.representable hbound
  case neg =>
    have hexact : a - b * ⌊a / b⌋ = ρ := by
      rw [htruncated.floor_eq, if_neg hneg, hsplit]
      ring
    rw [if_neg (haway.not.2 hneg), hexact]
    exact hr.correctlyRounded

theorem HasValue.floorMod_bounded (hx : x.HasValue a) (hy : y.HasValue b) (hb : b ≠ 0) :
    (x.floorMod y).isFinite = true ∧ |(x.floorMod y).toRat| ≤ |b| :=
  have hrounded := hx.correctlyRounded_floorMod hy hb
  ⟨hrounded.nearest.1, hrounded.abs_le hy.representable (abs_sub_mul_floor_lt hb a).le⟩

theorem HasValue.floorMod_sign (hx : x.HasValue a) (hy : y.HasValue b) (hb : b ≠ 0) :
    (x.floorMod y).toRat = 0 ∨ 0 < (x.floorMod y).toRat * b := by
  have hrounded := hx.correctlyRounded_floorMod hy hb
  have hsign := hrounded.toRat_mul_nonneg
  have hexact := sub_mul_floor_mul_nonneg hb a
  generalize a - b * ⌊a / b⌋ = t at hrounded hsign hexact
  rcases eq_or_ne (x.floorMod y).toRat 0 with hzero | hne
  · exact .inl hzero
  · have ht : t ≠ 0 := by
      rintro rfl
      exact hne (hrounded.hasValue hasValue_zero.representable).toRat_eq
    have hpositive := mul_pos (hsign.lt_of_ne (mul_ne_zero hne ht).symm)
      (hexact.lt_of_ne (mul_ne_zero ht hb).symm)
    have hsquare : (x.floorMod y).toRat * t * (t * b) = (x.floorMod y).toRat * b * (t * t) := by
      ring
    rw [hsquare] at hpositive
    exact .inr (pos_of_mul_pos_left hpositive (mul_self_nonneg t))

/-! ## The quotient rounded down -/

/-- The quotient before it becomes a whole number. -/
def roughQuotient (x y : Binary64) : Binary64 :=
  let q := (x - x.rem y) / y
  if (x.rem y).pointsAway y then q - one else q

/-- The nearer of the two whole numbers around a number. -/
def snapped (q : Binary64) : Binary64 :=
  if half.lt (q - q.floor) then q.floor + one else q.floor

theorem floorDiv_eq (x y : Binary64) :
    x.floorDiv y = if (x.roughQuotient y).isZero then zero.withSign (x / y).signBit
      else (x.roughQuotient y).snapped := by
  rw [roughQuotient, pointsAway, bne_comm]
  rfl

/-- **Snapping finds a whole number** that is nearer than two fifths. -/
theorem HasValue.snapped_of_near (hq : q.HasValue e) (hnear : |e - n| ≤ 2 / 5)
    (hn : |n| ≤ 2 ^ (53 : Nat)) : q.snapped.HasValue n := by
  obtain ⟨hlow, hhigh⟩ := abs_le.1 hnear
  have hbelow := hq.floor
  have hstart := Int.floor_le e
  have hend := Int.lt_floor_add_one e
  have hstep : |e - ⌊e⌋| ≤ |1| := by
    rw [abs_one, abs_le]
    constructor <;> linarith
  obtain ⟨t, ht, herror⟩ := hq.sub_near hbelow hasValue_one.representable hstep
  have hsmall : |t - (e - ⌊e⌋)| ≤ 1 / 2 ^ (53 : Nat) :=
    herror.trans (div_le_div_of_nonneg_right (by simpa using hstep) (by positivity))
  obtain ⟨hlow', hhigh'⟩ := abs_le.1 hsmall
  have htest := hasValue_half.lt_iff ht
  rw [snapped]
  -- the whole number is the floor if it is not above, and else the floor is one below it
  rcases le_or_gt (n : ℚ) e with habove | hless
  case inl =>
    have hfloor : ⌊e⌋ = n := Int.floor_eq_iff.2 ⟨habove, by linarith⟩
    rw [hfloor] at hbelow hlow' hhigh'
    have hhalf : ¬ 1 / 2 < t := by
      norm_num at hhigh' ⊢
      linarith
    rwa [if_neg (htest.not.2 hhalf)]
  case inr =>
    have hfloor : ⌊e⌋ = n - 1 := by
      rw [Int.floor_eq_iff]
      push_cast
      constructor <;> linarith
    rw [hfloor] at hbelow hlow' hhigh'
    push_cast at hbelow hlow' hhigh'
    have hhalf : 1 / 2 < t := by
      norm_num at hlow' ⊢
      linarith
    rw [if_pos (htest.2 hhalf)]
    have hsum : (n : ℚ) - 1 + 1 = n := by ring
    have hresult := hbelow.add hasValue_one
    rw [hsum] at hresult
    exact hresult.hasValue (representable_intCast hn)

/-- **A rough quotient near a whole number** gives this whole number. -/
theorem floorDiv_of_near (hq : (x.roughQuotient y).HasValue e) (hnear : |e - n| ≤ 2 / 5)
    (hn : |n| ≤ 2 ^ (53 : Nat)) : (x.floorDiv y).HasValue n := by
  rw [floorDiv_eq]
  by_cases hzero : (x.roughQuotient y).isZero = true
  case pos =>
    obtain rfl := hq.isZero_iff.1 hzero
    have hwhole : n = 0 := by
      have hlt : |(n : ℚ)| < 1 := by
        rw [zero_sub, abs_neg] at hnear
        linarith
      exact Int.abs_lt_one_iff.1 (by exact_mod_cast hlt)
    rw [if_pos hzero, hwhole]
    exact ⟨rfl, by cases (x / y).signBit <;> simp [withSign, zero, toRat]⟩
  case neg =>
    rw [if_neg hzero]
    exact hq.snapped_of_near hnear hn

/-- **The rounded quotient** of the dividend without the remainder is near the truncated quotient,
since each of the two roundings is one part in `2 ^ 53`. -/
theorem quotient_near (hx : x.HasValue a) (hy : y.HasValue b) (hr : r.HasValue c)
    (htruncated : Truncated a b n c) (hbound : |a / b| ≤ 2 ^ (50 : Nat)) :
    ∃ e, ((x - r) / y).HasValue e ∧ |e - n| ≤ 13 / 50 := by
  have hb := htruncated.ne_zero
  have hsize : |(n : ℚ)| ≤ 2 ^ (50 : Nat) := htruncated.abs_quotient_le.trans hbound
  have hmultiple := htruncated.sub_eq
  obtain ⟨d, hd, hderror⟩ := hx.sub_near hr hx.representable
    (hmultiple ▸ htruncated.abs_mul_le)
  rw [hmultiple, abs_mul] at hderror
  have hfirst : |d / b - n| ≤ |(n : ℚ)| / 2 ^ (53 : Nat) := by
    have hscaled : d / b - n = (d - n * b) / b := by field_simp
    rw [hscaled, abs_div, div_le_iff₀ (abs_pos.2 hb), div_mul_eq_mul_div]
    exact hderror
  -- a quotient that is not zero is at least a half, so its rounding has the error of normal numbers
  rcases eq_or_ne n 0 with rfl | hne
  case inl =>
    have hzero : d / b = 0 := by simpa using hfirst
    have hquotient := hd.div hy hb
    rw [hzero] at hquotient
    exact ⟨0, hquotient.hasValue hasValue_zero.representable, by norm_num⟩
  case inr =>
    have hone : (1 : ℚ) ≤ |(n : ℚ)| := by exact_mod_cast Int.one_le_abs hne
    have hlow : |(n : ℚ)| - |(n : ℚ)| / 2 ^ (53 : Nat) ≤ |d / b| := by
      have htriangle := abs_sub_abs_le_abs_sub (n : ℚ) (d / b)
      rw [abs_sub_comm] at htriangle
      linarith
    have hhigh : |d / b| ≤ |(n : ℚ)| + |(n : ℚ)| / 2 ^ (53 : Nat) := by
      have htriangle := abs_sub_abs_le_abs_sub (d / b) (n : ℚ)
      linarith
    have hnormal : 2 ^ (-1022 : Int) ≤ |d / b| := by
      calc (2 : ℚ) ^ (-1022 : Int) ≤ 2 ^ (-1 : Int) :=
            zpow_le_zpow_right₀ (by norm_num) (by norm_num)
        _ ≤ |d / b| := by
            norm_num at hlow ⊢
            linarith
    have hreach : |d / b| ≤ |((2 ^ 53 : Int) : ℚ)| := by
      norm_num at hhigh hsize ⊢
      linarith
    obtain ⟨e, he, heerror⟩ :=
      (hd.div hy hb).near (representable_intCast (by norm_num)) hreach (.inl hnormal)
    refine ⟨e, he, ?_⟩
    have htriangle := abs_sub_le e (d / b) n
    norm_num at hhigh hsize hfirst heerror ⊢
    linarith

/-- **The rough quotient is near the floor**: the step from truncation to the floor adds a third
rounding. -/
theorem HasValue.roughQuotient_near (hx : x.HasValue a) (hy : y.HasValue b) (hb : b ≠ 0)
    (hbound : |a / b| ≤ 2 ^ (50 : Nat)) :
    ∃ e, (x.roughQuotient y).HasValue e ∧ |e - (⌊a / b⌋ : Int)| ≤ 2 / 5 := by
  obtain ⟨n, ρ, hr, htruncated⟩ := hx.exists_rem hy hb
  have hsize : |(n : ℚ)| ≤ 2 ^ (50 : Nat) := htruncated.abs_quotient_le.trans hbound
  obtain ⟨e, he, herror⟩ := quotient_near hx hy hr htruncated hbound
  have haway := hr.pointsAway_iff hy hb
  simp only [roughQuotient]
  by_cases hneg : ρ * b < 0
  case pos =>
    have hlimit : |e - 1| ≤ 2 ^ (50 : Nat) + 2 := by
      have htriangle := abs_sub_le e n 1
      have hsteps := abs_sub (n : ℚ) 1
      rw [abs_one] at hsteps
      linarith
    have hreach : |e - 1| ≤ |((2 ^ 53 : Int) : ℚ)| := by
      norm_num at hlimit ⊢
      linarith
    obtain ⟨e', he', herror'⟩ :=
      he.sub_near hasValue_one (representable_intCast (by norm_num)) hreach
    rw [if_pos (haway.2 hneg), htruncated.floor_eq, if_pos hneg]
    refine ⟨e', he', ?_⟩
    have htriangle := abs_sub_le e' (e - 1) (n - 1)
    rw [sub_sub_sub_cancel_right] at htriangle
    push_cast
    norm_num at hlimit herror' ⊢
    linarith
  case neg =>
    rw [if_neg (haway.not.2 hneg), htruncated.floor_eq, if_neg hneg]
    exact ⟨e, he, by linarith⟩

/-- **The quotient rounded down is exact** up to `2 ^ 50`. -/
theorem HasValue.floorDiv_of_le (hx : x.HasValue a) (hy : y.HasValue b) (hb : b ≠ 0)
    (hbound : |a / b| ≤ 2 ^ (50 : Nat)) : (x.floorDiv y).HasValue (⌊a / b⌋ : Int) := by
  obtain ⟨e, he, hnear⟩ := hx.roughQuotient_near hy hb hbound
  have hfloor : |⌊a / b⌋| ≤ 2 ^ (53 : Nat) :=
    (abs_floor_le (by exact_mod_cast hbound)).trans (pow_le_pow_right₀ (by decide) (by decide))
  exact floorDiv_of_near he hnear hfloor

/-! ## Whole numbers -/

/-- **The quotient of whole numbers rounded down is exact** as long as the dividend and the result
are not larger than `2 ^ 53`. -/
theorem HasValue.floorDiv_whole {i j : Int} (hx : x.HasValue i) (hy : y.HasValue j) (hj : j ≠ 0)
    (hi : |i| ≤ 2 ^ (53 : Nat)) (hfloor : |⌊(i : ℚ) / j⌋| ≤ 2 ^ (53 : Nat)) :
    (x.floorDiv y).HasValue (⌊(i : ℚ) / j⌋ : Int) := by
  have hj' : (j : ℚ) ≠ 0 := by exact_mod_cast hj
  obtain ⟨n, ρ, hr, htruncated⟩ := hx.exists_rem hy hj'
  have hproduct : |n * j| ≤ 2 ^ (53 : Nat) :=
    le_trans (by exact_mod_cast htruncated.abs_mul_le) hi
  have hquotient : |n| ≤ 2 ^ (53 : Nat) := by
    refine le_trans ?_ hproduct
    rw [abs_mul]
    exact le_mul_of_one_le_right (abs_nonneg n) (Int.one_le_abs hj)
  have hmultiple : (i : ℚ) - ρ = (n * j : Int) := by
    rw [htruncated.sub_eq]
    push_cast
    rfl
  have hdividend : (x - x.rem y).HasValue (n * j : Int) :=
    (hmultiple ▸ hx.sub hr).hasValue (representable_intCast hproduct)
  have hdivided : ((n * j : Int) : ℚ) / j = n := by
    push_cast
    rw [mul_div_cancel_right₀ _ hj']
  have hexact : ((x - x.rem y) / y).HasValue n :=
    (hdivided ▸ hdividend.div hy hj').hasValue (representable_intCast hquotient)
  have hrough : (x.roughQuotient y).HasValue (⌊(i : ℚ) / j⌋ : Int) := by
    have haway := hr.pointsAway_iff hy hj'
    simp only [roughQuotient]
    rw [htruncated.floor_eq] at hfloor ⊢
    by_cases hneg : ρ * j < 0
    case pos =>
      rw [if_pos hneg] at hfloor ⊢
      rw [if_pos (haway.2 hneg)]
      have hstep := hexact.sub hasValue_one
      exact Rounds.hasValue (by exact_mod_cast hstep) (representable_intCast hfloor)
    case neg =>
      rw [if_neg hneg, if_neg (haway.not.2 hneg)]
      exact hexact
  exact floorDiv_of_near hrough (by norm_num) hfloor

/-- **The remainder of whole numbers is exact.** -/
theorem HasValue.floorMod_whole {i j : Int} (hx : x.HasValue i) (hy : y.HasValue j) (hj : j ≠ 0)
    (hbound : |j| ≤ 2 ^ (53 : Nat)) :
    (x.floorMod y).HasValue (i - j * ⌊(i : ℚ) / j⌋ : Int) := by
  have hj' : (j : ℚ) ≠ 0 := by exact_mod_cast hj
  have hwhole : (i : ℚ) - j * ⌊(i : ℚ) / j⌋ = (i - j * ⌊(i : ℚ) / j⌋ : Int) := by push_cast; rfl
  have hless := abs_sub_mul_floor_lt hj' i
  have hrounded := hx.correctlyRounded_floorMod hy hj'
  rw [hwhole] at hless hrounded
  have hsmall : |i - j * ⌊(i : ℚ) / j⌋| ≤ 2 ^ (53 : Nat) :=
    le_trans (by exact_mod_cast hless.le) hbound
  exact hrounded.hasValue (representable_intCast hsmall)

/-! ## Both results -/

/-- **Division rounded down.**  For finite numbers and a divisor that is not zero, the remainder is
the correctly rounded value of the exact remainder `a - b * ⌊a / b⌋`; it is zero or has the sign of
the divisor, and is never larger than the divisor.  The quotient is the floor itself as long as it
is not larger than `2 ^ 50`, although it is computed from rounded numbers. -/
theorem floorMod_floorDiv_exact {x y : Binary64} (hx : x.isFinite = true) (hy : y.isFinite = true)
    (hne : y.isZero = false) :
    let a := x.toRat
    let b := y.toRat
    (x.floorMod y).CorrectlyRounded (a - b * ⌊a / b⌋) ∧
      ((x.floorMod y).toRat = 0 ∨ 0 < (x.floorMod y).toRat * b) ∧
      |(x.floorMod y).toRat| ≤ |b| ∧
      (|a / b| ≤ 2 ^ (50 : Nat) →
        (x.floorDiv y).isFinite = true ∧ (x.floorDiv y).toRat = ⌊a / b⌋) := by
  intro a b
  have ha : x.HasValue a := hasValue_toRat hx
  have hb : y.HasValue b := hasValue_toRat hy
  have hzero : b ≠ 0 := hb.isZero_eq_false_iff.1 hne
  refine ⟨ha.correctlyRounded_floorMod hb hzero, ha.floorMod_sign hb hzero,
    (ha.floorMod_bounded hb hzero).2, fun hbound => ?_⟩
  have hresult := ha.floorDiv_of_le hb hzero hbound
  exact ⟨hresult.isFinite, hresult.toRat_eq⟩

/-- The number nearest to a tenth is a little larger than a tenth, so that it goes into one nine
times, although the quotient of the two is rounded to ten. -/
theorem floorMod_floorDiv_exact_tenth :
    let tenth := ofRat false (1 / 10)
    one.isFinite = true ∧ tenth.isFinite = true ∧ tenth.isZero = false ∧
      |one.toRat / tenth.toRat| ≤ 2 ^ (50 : Nat) ∧ (one / tenth).toRat = 10 ∧
      (one.floorDiv tenth).toRat = 9 ∧
      (one.floorMod tenth).CorrectlyRounded (one.toRat - tenth.toRat * 9) := by
  intro tenth
  have hfinite : tenth.isFinite = true := by decide +kernel
  have hnonzero : tenth.isZero = false := by decide +kernel
  have hvalue : tenth.toRat = 3602879701896397 / 36028797018963968 := by decide +kernel
  have hbound : |one.toRat / tenth.toRat| ≤ 2 ^ (50 : Nat) := by
    rw [hasValue_one.toRat_eq, hvalue]
    norm_num [abs_of_pos]
  have hfloor : ⌊one.toRat / tenth.toRat⌋ = 9 := by
    rw [Int.floor_eq_iff, hasValue_one.toRat_eq, hvalue]
    norm_num
  obtain ⟨hrounded, -, -, hquotient⟩ :=
    floorMod_floorDiv_exact hasValue_one.isFinite hfinite hnonzero
  rw [hfloor] at hrounded hquotient
  exact ⟨rfl, hfinite, hnonzero, hbound, by decide +kernel, by simpa using (hquotient hbound).2,
    by simpa using hrounded⟩

end Binary64

end Calculator
