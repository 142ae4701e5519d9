import Calculator.Number.Arithmetic

/-!
# Powers of binary64 numbers

`Binary64.pow` decides exactly everything about a power that can be decided without computing a
transcendental function: which operands have no real result, which results are zero, one or
infinite whatever the size of the operands, and the sign.  What remains is the size of a positive
power of a positive finite number, `Magnitude.pow`; that one is computed in machine floating point,
since its last bit is not fixed by a rule.

Keeping the machine operation inside `Magnitude.pow` has a use in proofs: its result is a magnitude
or beyond the largest one, so no property of the machine operation is needed to know that a power
of finite numbers is undefined **only** for a negative base and an exponent that is not whole.
-/

namespace Calculator

/-! ## Whole and odd numbers -/

namespace Magnitude

/-- Whether the magnitude is a whole number. -/
def isWhole (m : Magnitude) : Bool := m.units % unitsPerOne == 0

/-- Whether the magnitude is an odd whole number. -/
def isOdd (m : Magnitude) : Bool := m.isWhole && m.units / unitsPerOne % 2 == 1

end Magnitude

namespace Binary64

/-- Whether the number is finite and whole. -/
def isWhole : Binary64 → Bool
  | finite _ m => m.isWhole
  | _ => false

/-- Whether the number is an odd whole number. -/
def isOdd : Binary64 → Bool
  | finite _ m => m.isOdd
  | _ => false

end Binary64

/-! ## The size of a power -/

/-- The machine number with the same bits. -/
def Binary64.toFloat (x : Binary64) : Float := .ofBits x.toBits

/-- The size of a positive magnitude raised to a finite exponent, as the machine computes it;
`none` when it is beyond the largest magnitude. -/
def Magnitude.pow (base : Magnitude) (exponent : Binary64) : Option Magnitude :=
  let result := ((Binary64.finite false base).toFloat.pow exponent.toFloat).toBits
  Magnitude.ofPattern? (result.toNat % Binary64.signPlace)

/-! ## Powers -/

namespace Binary64

/-- A zero base: the power is zero or infinite, and an odd exponent keeps the sign. -/
def powZero (negative : Bool) (y : Binary64) : Binary64 :=
  if y.isNegative then infinite (negative && y.isOdd)
  else finite (negative && y.isOdd) .zero

/-- An infinite base: the power is zero or infinite, and an odd exponent keeps the sign. -/
def powInfinite (negative : Bool) (y : Binary64) : Binary64 :=
  if y.isNegative then finite (negative && y.isOdd) .zero
  else infinite (negative && y.isOdd)

/-- An infinite exponent: only whether the size of the base is below, at or above one matters. -/
def powByInfinity (base : Magnitude) (exponentNegative : Bool) : Binary64 :=
  if base.units = unitsPerOne then one
  else if decide (base.units < unitsPerOne) == exponentNegative then infinite false
  else zero

/-- **The power.**  An exponent of zero and a base of one give one, whatever the other operand.  A
negative base has a power only for whole exponents, negative for the odd ones. -/
def pow (x y : Binary64) : Binary64 :=
  if y.isZero || x == one then one
  else match x, y with
    | nan, _ | _, nan => nan
    | infinite negative, y => powInfinite negative y
    | finite negative m, y =>
      if m.mantissa = 0 then powZero negative y
      else match y with
        | finite .. =>
          if negative && !y.isWhole then nan
          else ofMagnitude (negative && y.isOdd) (m.pow y)
        | infinite exponentNegative => powByInfinity m exponentNegative
        | nan => nan

end Binary64

end Calculator
