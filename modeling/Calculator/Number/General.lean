import Calculator.Number.Shortest

/-!
# General notation

Results are shown with a limited count of significant digits.  General notation is positional for
values of ordinary size and scientific for very large and very small ones; the exponent of the
**rounded** value decides, so that a value that rounds up to a power of ten is treated as that
power.  The positional form rounds the value itself once more, at the place of its last digit.
-/

namespace Calculator

attribute [local instance (2000)] instPowNat

/-- How many significant digits a result is shown with. -/
def significantDigits : Nat := 10

/-- An exponent with its sign and at least two digits. -/
def exponentText (exponent : Int) : List Char :=
  'e' :: (if exponent < 0 then '-' else '+') ::
    (Nat.toDigits 10 exponent.natAbs).leftpad 2 '0'

/-- **General notation of a positive rational** with the given positive count of significant digits.
It is positional for exponents from `-4` up to one less than the count, scientific otherwise; zeros
that say nothing are left out in both. -/
def generalText (q : Rat) (digits : Nat) : List Char :=
  let rounded := Decimal.rounded q digits
  let exponent := rounded.exponent + digits - 1
  if exponent < -4 || (digits : Int) ≤ exponent then
    Numeral.trimFraction (Numeral.fixed rounded.coefficient (digits - 1)) ++ exponentText exponent
  else
    let places := (digits - 1 - exponent).toNat
    Numeral.trimFraction (Numeral.fixed (roundNearest (q * 10 ^ (places : Int))) places)

namespace Binary64

/-- **A number in general notation**; a count of zero digits is taken as one.  The sign of zero is
kept, and numbers that are not finite have their full text. -/
def general (x : Binary64) (digits : Nat) : List Char :=
  match x with
  | finite negative m =>
    signed negative (if m.units = 0 then ['0'] else generalText m.toRat (max digits 1))
  | _ => x.text

/-- **A result as it is shown**: `significantDigits` digits, and zero without a sign. -/
def shown (x : Binary64) : List Char := x.normalizeZero.general significantDigits

end Binary64

end Calculator
