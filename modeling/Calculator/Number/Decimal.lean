import Calculator.Number.Numeral

/-!
# Decimals and decimal grids

A `Decimal` is a natural coefficient times a power of ten.  Fixing the exponent gives a grid of
evenly spaced decimals, and every decimal text of a number is a choice of a point on such a grid.
`decimalExponent` says where the first significant digit of a value stands, `Decimal.rounded` picks
the nearest point of the grid that keeps a given count of significant digits.
-/

namespace Calculator

attribute [local instance (2000)] instPowNat

/-- **Where the first digit stands**: the exponent of the largest power of ten that is not above the
positive rational `q`.  Below one it is read off the reciprocal, whose digits count the places. -/
def decimalExponent (q : Rat) : Int :=
  if 1 ≤ q then Numeral.digitCount q.floor.toNat - 1
  else -Numeral.digitCount (q⁻¹.ceil.toNat - 1)

/-- The decimal `coefficient * 10 ^ exponent`. -/
structure Decimal where
  coefficient : Nat
  exponent : Int
deriving DecidableEq

namespace Decimal

/-- The exact value. -/
def toRat (d : Decimal) : Rat := d.coefficient * 10 ^ d.exponent

/-- **Positional notation**: all digits before the point are written, however many, and zeros at the
end of a fraction are not. -/
def positional (d : Decimal) : List Char :=
  Numeral.trimFraction
    (Numeral.fixed (d.coefficient * 10 ^ d.exponent.toNat) (-d.exponent).toNat)

/-- **The positive rational `q` to `digits` significant digits**, a half going to the even digit.
Rounding nines up gives a power of ten, which has its first digit one place further left. -/
def rounded (q : Rat) (digits : Nat) : Decimal :=
  let exponent := decimalExponent q + 1 - digits
  let coefficient := roundNearest (q / 10 ^ exponent)
  if coefficient < 10 ^ digits then ⟨coefficient, exponent⟩
  else ⟨10 ^ (digits - 1), exponent + 1⟩

end Decimal

end Calculator
