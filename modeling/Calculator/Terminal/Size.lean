import Calculator.Number.Root

/-!
# The size of a screen

A screen is used up to a certain number of cells.  Of a larger one only a part is used, which has
the same proportions and is as large as the number of cells allows.
-/

namespace Calculator.Terminal

/-- **The size of a screen** in columns and rows. -/
structure Size where
  width : Nat
  height : Nat
deriving DecidableEq

namespace Size

/-- The most cells that are used. -/
def maxCells : Nat := 0xffff

/-- **The part of a screen that is used.**  Its sides are computed in binary64 numbers from the
proportion of the screen, each step rounded, and cut to whole numbers at the end. -/
def limited (size : Size) : Size :=
  if size.width * size.height ≤ maxCells then size
  else
    let proportion := Binary64.ofNat size.width / Binary64.ofNat size.height
    let height := (Binary64.ofNat maxCells / proportion).sqrt
    ⟨(height * proportion).wholePart, height.wholePart⟩

theorem limited_of_le {size : Size} (h : size.width * size.height ≤ maxCells) :
    size.limited = size := if_pos h

end Size

end Calculator.Terminal
