import Calculator.Number.Rounding

/-!
# The binary64 numbers

The numbers the calculator works with are those of the IEEE 754 format binary64.  They are kept as
exact values, not as bit patterns: a finite number is a sign and a `Magnitude`, and a magnitude is
a whole number of **units** of `2 ^ -1074`, the smallest positive number of the format.  Writing it
as `mantissa * 2 ^ scale` units with a mantissa of at most 53 bits says at once which whole
numbers of units belong to the format.

* `Magnitude.nearest` rounds an exact quotient of units to the format; it is the only place where
  the format rounds.  `Magnitude.ofRat` and `Binary64.ofRat` round an exact rational through it.
* `Magnitude.toRat` and `Binary64.toRat` read the exact value back.
* `Binary64.ofBits` and `Binary64.toBits` go to and from the interchange bit pattern.
-/

namespace Calculator

-- Powers of natural numbers are those of the core library, whatever else is loaded.
attribute [local instance (2000)] instPowNat

/-! ## Magnitudes -/

/-- How many units of `2 ^ -1074` make one. -/
def unitsPerOne : Nat := 2 ^ (1074 : Nat)

theorem unitsPerOne_pos : 0 < unitsPerOne := by decide +kernel

/-- The leading bit of a mantissa of 53 bits, `2 ^ 52`. -/
abbrev leadingBit : Nat := 0x10000000000000

theorem leadingBit_mul_two_pow (n : Nat) : leadingBit * 2 ^ n = 2 ^ (52 + n) := by
  rw [Nat.pow_add]

/-- **The size of a finite binary64 number**: `mantissa * 2 ^ scale` units of `2 ^ -1074`.  The
mantissa has its leading bit set except at the lowest scale, so each size is written in one way
only. -/
structure Magnitude where
  /-- At most 53 bits. -/
  mantissa : Nat
  /-- How often the unit `2 ^ -1074` is doubled. -/
  scale : Nat
  mantissa_lt : mantissa < 2 * leadingBit
  scale_le : scale ≤ 2045
  normalized : scale = 0 ∨ leadingBit ≤ mantissa
deriving DecidableEq

namespace Magnitude

/-- The number of units of `2 ^ -1074`. -/
def units (m : Magnitude) : Nat := m.mantissa * 2 ^ m.scale

/-- The exact value. -/
def toRat (m : Magnitude) : Rat := mkRat m.units unitsPerOne

/-- The size of both zeros. -/
def zero : Magnitude := ⟨0, 0, by decide, by decide, .inl rfl⟩

instance : Inhabited Magnitude := ⟨zero⟩

@[simp] theorem units_zero : zero.units = 0 := rfl

@[simp] theorem toRat_zero : zero.toRat = 0 := by
  simp [toRat]

theorem units_eq_zero {m : Magnitude} : m.units = 0 ↔ m = zero := by
  constructor
  · intro h
    obtain ⟨mantissa, scale, _, _, hnorm⟩ := m
    simp only [units, Nat.mul_eq_zero, Nat.pow_eq_zero] at h
    have hm : mantissa = 0 := by omega
    subst hm
    have hs : scale = 0 := hnorm.resolve_right (by decide)
    subst hs
    rfl
  · rintro rfl
    rfl

/-! ### Rounding to the format -/

/-- The scale at which the quotient `num / den` of units has a mantissa of at most 53 bits. -/
def scaleOf (num den : Nat) : Nat := (num / den).log2 - 52

/-- A quotient is below `2 ^ 53` at its scale. -/
theorem le_of_scaleOf (num den : Nat) (hden : 0 < den) :
    num ≤ 2 * leadingBit * (den * 2 ^ scaleOf num den) := by
  have hlog : num / den < 2 ^ ((num / den).log2 + 1) := Nat.lt_log2_self
  have hpow : 2 ^ ((num / den).log2 + 1) ≤ 2 ^ (52 + (scaleOf num den + 1)) :=
    Nat.pow_le_pow_right (by decide) (by simp only [scaleOf]; omega)
  have hlt : num / den < 2 ^ (52 + (scaleOf num den + 1)) := Nat.lt_of_lt_of_le hlog hpow
  have hmul := (Nat.div_lt_iff_lt_mul hden).1 hlt
  rw [← leadingBit_mul_two_pow, Nat.pow_succ] at hmul
  have hassoc : 2 * leadingBit * (den * 2 ^ scaleOf num den)
      = leadingBit * (2 ^ scaleOf num den * 2) * den := by
    simp only [Nat.mul_assoc, Nat.mul_comm, Nat.mul_left_comm]
  exact Nat.le_of_lt (hassoc ▸ hmul)

/-- Above the lowest scale a quotient is at least `2 ^ 52` at its scale. -/
theorem ge_of_scaleOf (num den : Nat) (hden : 0 < den) (hscale : scaleOf num den ≠ 0) :
    leadingBit * (den * 2 ^ scaleOf num den) ≤ num := by
  have hlog : (num / den).log2 = 52 + scaleOf num den := by
    simp only [scaleOf] at hscale ⊢
    omega
  have hne : num / den ≠ 0 := by
    intro hzero
    rw [hzero, Nat.log2_zero] at hlog
    omega
  have hle : leadingBit * 2 ^ scaleOf num den ≤ num / den := by
    rw [leadingBit_mul_two_pow, ← hlog]
    exact Nat.log2_self_le hne
  have hmul := (Nat.le_div_iff_mul_le hden).1 hle
  rwa [Nat.mul_assoc, Nat.mul_comm (2 ^ scaleOf num den)] at hmul

/-- **Rounding to the format.**  The magnitude nearest to `num / den` units, a half going to the
even mantissa; `none` when that lies beyond the largest magnitude.  A quotient just below a power
of two may round up to it, which moves the leading bit to the next scale. -/
def nearest (num den : Nat) (hden : 0 < den) : Option Magnitude :=
  let scale := scaleOf num den
  let mantissa := roundQuotient num (den * 2 ^ scale)
  if hm : mantissa < 2 * leadingBit then
    if hs : scale ≤ 2045 then
      some ⟨mantissa, scale, hm, hs,
        (Nat.eq_zero_or_pos scale).imp_right fun hpos =>
          le_roundQuotient (Nat.mul_pos hden (Nat.two_pow_pos _))
            (ge_of_scaleOf num den hden (Nat.ne_of_gt hpos))⟩
    else none
  else if hs : scale + 1 ≤ 2045 then
    some ⟨leadingBit, scale + 1, by decide, hs, .inr (Nat.le_refl _)⟩
  else none

/-- The magnitude nearest to the size of a rational. -/
def ofRat (q : Rat) : Option Magnitude := nearest (q.num.natAbs * unitsPerOne) q.den q.den_pos

/-! ### Bit patterns -/

/-- The interchange pattern without the sign bit.  The leading bit of a normal mantissa is not
stored: added to the scale it makes the exponent field one larger, as the format asks. -/
def pattern (m : Magnitude) : Nat := m.scale * leadingBit + m.mantissa

/-- Reads a pattern without its sign bit; `none` when the exponent field is all ones or the pattern
has more than 63 bits. -/
def ofPattern? (bits : Nat) : Option Magnitude :=
  let field := bits / leadingBit
  let fraction := bits % leadingBit
  have hfraction : fraction < leadingBit := Nat.mod_lt _ (by decide)
  if field = 0 then
    some ⟨fraction, 0, Nat.lt_of_lt_of_le hfraction (by decide), by decide, .inl rfl⟩
  else if htop : field ≤ 2046 then
    some ⟨leadingBit + fraction, field - 1, by omega, by omega, .inr (by omega)⟩
  else none

end Magnitude

/-! ## Numbers -/

/-- **A binary64 number.**  All undefined results are one `nan`. -/
inductive Binary64 where
  | finite (negative : Bool) (magnitude : Magnitude)
  | infinite (negative : Bool)
  | nan
deriving DecidableEq

namespace Binary64

instance : Inhabited Binary64 := ⟨.finite false .zero⟩

/-- The exact value of a finite number.  An infinity and `nan` have none and give zero. -/
def toRat : Binary64 → Rat
  | finite negative m => if negative then -m.toRat else m.toRat
  | infinite _ | nan => 0

/-- Whether the number is finite. -/
def isFinite : Binary64 → Bool
  | finite .. => true
  | _ => false

/-- Whether the number is one of the two zeros. -/
def isZero : Binary64 → Bool
  | finite _ m => m.mantissa == 0
  | _ => false

/-- The sign bit; `nan` has none. -/
def signBit : Binary64 → Bool
  | finite negative _ | infinite negative => negative
  | nan => false

/-- Whether the number is below zero. -/
def isNegative (x : Binary64) : Bool := x.signBit && !x.isZero

/-- A sign and a size that may lie beyond the largest magnitude. -/
def ofMagnitude (negative : Bool) : Option Magnitude → Binary64
  | some m => finite negative m
  | none => infinite negative

/-- **The number nearest to an exact rational**, a half going to the even mantissa.  The rational
zero has no sign of its own, so the caller says which zero it stands for. -/
def ofRat (zeroNegative : Bool) (q : Rat) : Binary64 :=
  ofMagnitude (if q = 0 then zeroNegative else decide (q < 0)) (Magnitude.ofRat q)

/-- The positive zero. -/
def zero : Binary64 := finite false .zero

/-- The number one. -/
def one : Binary64 := finite false ⟨leadingBit, 1022, by decide, by decide, .inr (Nat.le_refl _)⟩

/-- The number one half. -/
def half : Binary64 := finite false ⟨leadingBit, 1021, by decide, by decide, .inr (Nat.le_refl _)⟩

/-- **Zero without its sign**: both zeros become the positive one, all else is kept. -/
def normalizeZero (x : Binary64) : Binary64 := if x.isZero then zero else x

/-- The bit that holds the sign in the interchange format. -/
abbrev signPlace : Nat := 0x8000000000000000

/-- The pattern of an infinity: an exponent field of ones over an empty fraction. -/
abbrev infinitePattern : Nat := 0x7ff0000000000000

/-- Reads the 64 bits of the interchange format. -/
def ofBits (bits : UInt64) : Binary64 :=
  let negative := decide (signPlace ≤ bits.toNat)
  let size := bits.toNat % signPlace
  match Magnitude.ofPattern? size with
  | some m => finite negative m
  | none => if size = infinitePattern then infinite negative else nan

/-- The 64 bits of the interchange format; `nan` is the quiet one with an empty payload. -/
def toBits : Binary64 → UInt64
  | finite negative m => .ofNat ((if negative then signPlace else 0) + m.pattern)
  | infinite negative => .ofNat ((if negative then signPlace else 0) + infinitePattern)
  | nan => .ofNat 0x7ff8000000000000

/-! ## Basic facts -/

@[simp] theorem isZero_zero : zero.isZero = true := rfl

@[simp] theorem toRat_zero : zero.toRat = 0 := by
  simp [zero, toRat]

@[simp] theorem isZero_normalizeZero (x : Binary64) : x.normalizeZero.isZero = x.isZero := by
  unfold normalizeZero
  split <;> simp_all

theorem normalizeZero_of_isZero {x : Binary64} (h : x.isZero = true) : x.normalizeZero = zero := by
  simp [normalizeZero, h]

@[simp] theorem normalizeZero_normalizeZero (x : Binary64) :
    x.normalizeZero.normalizeZero = x.normalizeZero := by
  cases h : x.isZero <;> simp [normalizeZero, h]

@[simp] theorem isFinite_normalizeZero (x : Binary64) :
    x.normalizeZero.isFinite = x.isFinite := by
  cases x with
  | finite negative m => unfold normalizeZero; split <;> rfl
  | infinite negative => rfl
  | nan => rfl

end Binary64

end Calculator
