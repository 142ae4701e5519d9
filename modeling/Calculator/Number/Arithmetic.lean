import Calculator.Number.Binary64

/-!
# Arithmetic on binary64 numbers

Each operation on finite numbers is computed on the exact rationals and rounded once, so what is
written here is the definition of correct rounding and not an approximation of it.  The cases with
an infinity or with `nan` follow IEEE 754.  A result that is exactly zero takes the sign that the
standard gives it: a sum is negative only if both summands are, a product, quotient or remainder
goes by the signs of its operands.

On top of the basic operations stand `floorMod` and `floorDiv`, the remainder and the quotient of
division rounded down.  Both start from the remainder of truncated division, which is exact, and so
stay right where rounding the quotient first would be off by one.
-/

namespace Calculator.Binary64

/-! ## Sign and comparison -/

/-- The number with the opposite sign. -/
def neg : Binary64 → Binary64
  | finite negative m => finite (!negative) m
  | infinite negative => infinite (!negative)
  | nan => nan

instance : Neg Binary64 := ⟨neg⟩

/-- The size of `x` with the given sign. -/
def withSign (negative : Bool) : Binary64 → Binary64
  | finite _ m => finite negative m
  | infinite _ => infinite negative
  | nan => nan

/-- **Less than.**  `nan` is not comparable, and the two zeros are equal. -/
def lt : Binary64 → Binary64 → Bool
  | nan, _ | _, nan => false
  | infinite negative, infinite negative' => negative && !negative'
  | infinite negative, finite .. => negative
  | finite .., infinite negative => !negative
  | finite negative m, finite negative' m' =>
    decide ((finite negative m).toRat < (finite negative' m').toRat)

/-! ## The basic operations -/

/-- The sum. -/
def add : Binary64 → Binary64 → Binary64
  | nan, _ | _, nan => nan
  | infinite negative, infinite negative' => if negative = negative' then infinite negative else nan
  | infinite negative, finite .. | finite .., infinite negative => infinite negative
  | finite negative m, finite negative' m' =>
    ofRat (negative && negative') ((finite negative m).toRat + (finite negative' m').toRat)

/-- The difference is the sum with the opposite. -/
def sub (x y : Binary64) : Binary64 := add x y.neg

/-- The product.  Zero times an infinity is undefined. -/
def mul : Binary64 → Binary64 → Binary64
  | nan, _ | _, nan => nan
  | infinite negative, infinite negative' => infinite (negative ^^ negative')
  | infinite negative, finite negative' m | finite negative' m, infinite negative =>
    if m.mantissa = 0 then nan else infinite (negative ^^ negative')
  | finite negative m, finite negative' m' =>
    ofRat (negative ^^ negative') ((finite negative m).toRat * (finite negative' m').toRat)

/-- The quotient.  Zero by zero and infinity by infinity are undefined; any other number divided by
zero is infinite. -/
def div : Binary64 → Binary64 → Binary64
  | nan, _ | _, nan => nan
  | infinite _, infinite _ => nan
  | infinite negative, finite negative' _ => infinite (negative ^^ negative')
  | finite negative _, infinite negative' => finite (negative ^^ negative') .zero
  | finite negative m, finite negative' m' =>
    if m'.mantissa = 0 then
      if m.mantissa = 0 then nan else infinite (negative ^^ negative')
    else
      ofRat (negative ^^ negative') ((finite negative m).toRat / (finite negative' m').toRat)

/-- **The remainder of truncated division.**  On the grid of units it is the remainder of two
natural numbers, hence exact; it has the sign of the dividend. -/
def rem : Binary64 → Binary64 → Binary64
  | nan, _ | _, nan => nan
  | infinite _, _ => nan
  | x@(finite ..), infinite _ => x
  | finite negative m, finite _ m' =>
    if m'.mantissa = 0 then nan
    else ofMagnitude negative (Magnitude.nearest (m.units % m'.units) 1 Nat.one_pos)

/-- The greatest whole number that is not above `x`. -/
def floor : Binary64 → Binary64
  | finite negative m => ofRat negative (finite negative m).toRat.floor
  | x => x

instance : Add Binary64 := ⟨add⟩
instance : Sub Binary64 := ⟨sub⟩
instance : Mul Binary64 := ⟨mul⟩
instance : Div Binary64 := ⟨div⟩

/-! ## Division rounded down -/

/-- **The remainder whose sign follows the divisor**: `-7` leaves `2` by `3`, and `7` leaves `-2` by
`-3`. -/
def floorMod (x y : Binary64) : Binary64 :=
  let r := x.rem y
  if !r.isZero && r.isNegative != y.isNegative then r + y else r

/-- **The quotient rounded down.**  Taking the remainder off first makes the dividend a multiple of
the divisor up to rounding, so the quotient is close to a whole number and the last step snaps it to
the nearer of the two around it.  A quotient of zero has the sign of the unrounded one. -/
def floorDiv (x y : Binary64) : Binary64 :=
  let r := x.rem y
  let q := (x - r) / y
  let q := if !r.isZero && y.isNegative != r.isNegative then q - one else q
  if q.isZero then zero.withSign (x / y).signBit
  else
    let below := q.floor
    if half.lt (q - below) then below + one else below

/-! ## Small laws -/

@[simp] theorem neg_neg (x : Binary64) : x.neg.neg = x := by
  cases x <;> simp [neg]

@[simp] theorem isFinite_neg (x : Binary64) : x.neg.isFinite = x.isFinite := by
  cases x <;> rfl

@[simp] theorem isZero_neg (x : Binary64) : x.neg.isZero = x.isZero := by
  cases x <;> rfl

end Calculator.Binary64
