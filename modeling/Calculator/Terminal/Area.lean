/-!
# Areas of a screen

An `Area` is a rectangle of cells, given by its upper left corner and its size.  Areas are split
into parts of nearly equal size by rounding the exact edges, so that the parts meet without gap or
overlap whatever the size.
-/

namespace Calculator.Terminal

/-- **A rectangle of cells.** -/
structure Area where
  x : Nat
  y : Nat
  width : Nat
  height : Nat
deriving DecidableEq

namespace Area

/-- The first column to the right of the area. -/
def right (a : Area) : Nat := a.x + a.width

/-- The first row below the area. -/
def bottom (a : Area) : Nat := a.y + a.height

/-- Whether a cell lies in the area. -/
def contains (a : Area) (x y : Nat) : Bool :=
  a.x ≤ x && x < a.right && a.y ≤ y && y < a.bottom

/-- The area without one cell on each side. -/
def inside (a : Area) : Area :=
  ⟨min (a.x + 1) a.right, min (a.y + 1) a.bottom, a.width - 2, a.height - 2⟩

@[simp] theorem contains_iff {a : Area} {x y : Nat} :
    a.contains x y = true ↔ a.x ≤ x ∧ x < a.x + a.width ∧ a.y ≤ y ∧ y < a.y + a.height := by
  simp only [contains, Bool.and_eq_true, decide_eq_true_eq, and_assoc]
  exact Iff.rfl

end Area

/-- **The edge before part `i`** when `total` cells are split into equal parts: the exact place
`i * total / parts`, rounded, a half going up. -/
def splitEdge (total parts i : Nat) : Nat := (2 * i * total + parts) / (2 * parts)

@[simp] theorem splitEdge_zero (total parts : Nat) (h : 0 < parts) :
    splitEdge total parts 0 = 0 := by
  simp only [splitEdge, Nat.mul_zero, Nat.zero_mul, Nat.zero_add]
  exact Nat.div_eq_of_lt (by omega)

@[simp] theorem splitEdge_self (total parts : Nat) (h : 0 < parts) :
    splitEdge total parts parts = total := by
  rw [splitEdge, Nat.mul_add_div (by omega : 0 < 2 * parts), Nat.div_eq_of_lt (by omega),
    Nat.add_zero]

theorem splitEdge_mono {total parts i j : Nat} (h : i ≤ j) :
    splitEdge total parts i ≤ splitEdge total parts j :=
  Nat.div_le_div_right
    (Nat.add_le_add_right (Nat.mul_le_mul_right _ (Nat.mul_le_mul_left _ h)) _)

end Calculator.Terminal
