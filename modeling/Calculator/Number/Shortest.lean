import Calculator.Number.Decimal

/-!
# The shortest text that reads back

The full text of a number is the decimal with the fewest significant digits that still rounds to
the number when it is read.  For each count of digits the search looks at the two points of that
decimal grid around the value; if any point of the grid reads back, one of these two does.  Of two
that read back the nearer one is taken, and of two equally near the larger.

Seventeen digits always suffice.  The search nevertheless ends in the exact decimal of the number,
so that **every** result reads back for a reason that has nothing to do with digit counts.
-/

namespace Calculator

attribute [local instance (2000)] instPowNat

namespace Magnitude

/-- Whether a decimal is read as the magnitude `m`. -/
def isReadFrom (m : Magnitude) (d : Decimal) : Bool := ofRat d.toRat == some m

/-- The decimal with the given count of significant digits that reads back as `m`, if one exists:
the nearer of the two around the value, or the larger of two equally near ones. -/
def withDigits? (m : Magnitude) (digits : Nat) : Option Decimal :=
  let exponent := decimalExponent m.toRat + 1 - digits
  let coefficient := (m.toRat / 10 ^ exponent).floor.toNat
  let below : Decimal := ⟨coefficient, exponent⟩
  let above : Decimal := ⟨coefficient + 1, exponent⟩
  if m.isReadFrom above && (!m.isReadFrom below || above.toRat - m.toRat ≤ m.toRat - below.toRat)
  then some above
  else if m.isReadFrom below then some below
  else none

/-- The exact decimal of a magnitude: dividing by a power of two is multiplying by a power of five
and moving the point. -/
def exactDecimal (m : Magnitude) : Decimal := ⟨m.units * 5 ^ (1074 : Nat), -1074⟩

/-- **The shortest decimal that reads back** as the positive magnitude `m`. -/
def shortest (m : Magnitude) : Decimal :=
  ((List.range 17).findSome? fun n => m.withDigits? (n + 1)).getD m.exactDecimal

end Magnitude

namespace Binary64

/-- A text with a minus sign in front if the number is negative. -/
def signed (negative : Bool) (text : List Char) : List Char :=
  if negative then '-' :: text else text

/-- **The full text of a number**: the shortest numeral that reads back, in positional notation at
every size, with the sign of zero kept. -/
def text : Binary64 → List Char
  | finite negative m =>
    signed negative (if m.units = 0 then ['0'] else m.shortest.positional)
  | infinite negative => signed negative ['i', 'n', 'f']
  | nan => ['N', 'a', 'N']

instance : ToString Binary64 := ⟨fun x => String.ofList x.text⟩

end Binary64

end Calculator
