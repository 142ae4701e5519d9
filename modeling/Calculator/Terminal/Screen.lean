import Calculator.Terminal.Area
import Calculator.Terminal.Style
import Calculator.Text.Width

/-!
# Screens

A screen is a grid of cells; each cell shows a symbol in some look.  It is seen through
`Screen.get`, and everything that draws is built from `Screen.modify`, which changes one cell:
`get_modify` says that it changes that cell and no other.  Drawing outside the screen changes
nothing.

A symbol is a character with the marks that follow it.  It may be two columns wide, and then covers
the cell to the right of its own; `rowText` reads a row the way it appears.
-/

namespace Calculator.Terminal

/-- **A cell**: a symbol and its look. -/
structure Cell where
  symbol : List Char := [' ']
  look : Look := {}
deriving DecidableEq

/-- **A screen**: its cells, row by row. -/
structure Screen where
  width : Nat
  height : Nat
  cells : Array Cell
  size_cells : cells.size = width * height

namespace Screen

/-- The screen with nothing on it. -/
def blank (width height : Nat) : Screen where
  width := width
  height := height
  cells := .replicate (width * height) {}
  size_cells := Array.size_replicate

/-- The whole screen as an area. -/
def area (s : Screen) : Area := ⟨0, 0, s.width, s.height⟩

/-- Where the cell of a column and a row is stored. -/
def index (s : Screen) (x y : Nat) : Nat := y * s.width + x

/-- The cell in a column and a row; outside the screen it is empty. -/
def get (s : Screen) (x y : Nat) : Cell :=
  if x < s.width && y < s.height then s.cells.getD (s.index x y) {} else {}

/-- **Changes one cell**, if it is on the screen. -/
def modify (s : Screen) (x y : Nat) (f : Cell → Cell) : Screen :=
  if x < s.width && y < s.height then
    { s with
      cells := s.cells.modify (s.index x y) f
      size_cells := by rw [Array.size_modify, s.size_cells] }
  else s

/-- Changes every cell of an area. -/
def modifyArea (s : Screen) (a : Area) (f : Cell → Cell) : Screen :=
  (List.range a.height).foldl (fun s j =>
    (List.range a.width).foldl (fun s i => s.modify (a.x + i) (a.y + j) f) s) s

/-- Puts a symbol into a cell and applies a style to it. -/
def put (s : Screen) (x y : Nat) (symbol : List Char) (style : Style) : Screen :=
  s.modify x y fun cell => ⟨symbol, cell.look.with style⟩

/-- Applies a style to every cell of an area. -/
def paint (s : Screen) (a : Area) (style : Style) : Screen :=
  s.modifyArea a fun cell => { cell with look := cell.look.with style }

/-! ## What is seen after a change -/

@[simp] theorem width_modify (s : Screen) (x y : Nat) (f : Cell → Cell) :
    (s.modify x y f).width = s.width := by
  unfold modify
  split <;> rfl

@[simp] theorem height_modify (s : Screen) (x y : Nat) (f : Cell → Cell) :
    (s.modify x y f).height = s.height := by
  unfold modify
  split <;> rfl

theorem index_lt (s : Screen) {x y : Nat} (hx : x < s.width) (hy : y < s.height) :
    s.index x y < s.cells.size := by
  have hrow : (y + 1) * s.width ≤ s.height * s.width := Nat.mul_le_mul_right _ hy
  rw [Nat.succ_mul] at hrow
  rw [s.size_cells, Nat.mul_comm s.width, index]
  omega

theorem index_inj (s : Screen) {x y x' y' : Nat} (hx : x < s.width) (hx' : x' < s.width) :
    s.index x y = s.index x' y' ↔ x = x' ∧ y = y' := by
  constructor
  · intro h
    have hpos : 0 < s.width := Nat.lt_of_le_of_lt (Nat.zero_le x) hx
    have hcolumn := congrArg (· % s.width) h
    have hrow := congrArg (· / s.width) h
    simp only [index, Nat.mul_comm _ s.width, Nat.mul_add_mod, Nat.mod_eq_of_lt hx,
      Nat.mod_eq_of_lt hx'] at hcolumn
    simp only [index, Nat.mul_comm _ s.width, Nat.mul_add_div hpos, Nat.div_eq_of_lt hx,
      Nat.div_eq_of_lt hx', Nat.add_zero] at hrow
    exact ⟨hcolumn, hrow⟩
  · rintro ⟨rfl, rfl⟩
    rfl

/-- **A change of one cell is seen in that cell and nowhere else.** -/
theorem get_modify (s : Screen) (x y x' y' : Nat) (f : Cell → Cell) :
    (s.modify x y f).get x' y' =
      if x' = x ∧ y' = y ∧ x < s.width ∧ y < s.height then f (s.get x y) else s.get x' y' := by
  by_cases hin : x < s.width ∧ y < s.height
  · obtain ⟨hx, hy⟩ := hin
    by_cases hin' : x' < s.width ∧ y' < s.height
    · obtain ⟨hx', hy'⟩ := hin'
      have hlt := s.index_lt hx hy
      have hlt' := s.index_lt hx' hy'
      simp only [modify, get, hx, hy, hx', hy', decide_true, Bool.and_self, if_true, and_true]
      by_cases heq : x' = x ∧ y' = y
      · obtain ⟨rfl, rfl⟩ := heq
        simp only [index] at hlt ⊢
        simp [Array.getD, Array.getElem_modify, hlt]
      · have hne : s.index x y ≠ s.index x' y' := by
          intro h
          obtain ⟨rfl, rfl⟩ := (s.index_inj hx hx').1 h
          exact heq ⟨rfl, rfl⟩
        rw [if_neg heq]
        simp only [index] at hne hlt' ⊢
        simp [Array.getD, Array.getElem_modify, hne, hlt']
    · have hne : ¬(x' = x ∧ y' = y ∧ x < s.width ∧ y < s.height) := by
        rintro ⟨rfl, rfl, h⟩
        exact hin' h
      rw [if_neg hne]
      have hout : (decide (x' < s.width) && decide (y' < s.height)) = false := by
        simpa using hin'
      simp only [get, width_modify, height_modify, hout]
      rfl
  · have hout : (decide (x < s.width) && decide (y < s.height)) = false := by
      simpa using hin
    have hne : ¬(x' = x ∧ y' = y ∧ x < s.width ∧ y < s.height) := fun h => hin h.2.2
    rw [if_neg hne, modify, hout]
    rfl

/-! ## Reading a screen -/

/-- The cells of a row from left to right. -/
def row (s : Screen) (y : Nat) : List Cell := (List.range s.width).map fun x => s.get x y

/-- The cells of a row as they are shown, where `covered` says whether the first one lies under the
symbol to its left. -/
def shownAfter : (covered : Bool) → List Cell → List Cell
  | _, [] => []
  | covered, cell :: rest =>
    (if covered then {} else cell) :: shownAfter (1 < Text.width cell.symbol) rest

/-- **The cells of a row as they are shown.**  What lies under a wide symbol is not drawn and stays
as it is on an empty screen. -/
def shownRow (s : Screen) (y : Nat) : List Cell := shownAfter false (s.row y)

/-- The symbols of a row as they appear, after `covered` cells that a wide symbol covers. -/
def visible : (covered : Nat) → List Cell → List Char
  | _, [] => []
  | covered + 1, _ :: rest => visible covered rest
  | 0, cell :: rest => cell.symbol ++ visible (Text.width cell.symbol - 1) rest

/-- **The text of a row.** -/
def rowText (s : Screen) (y : Nat) : String := String.ofList (visible 0 (s.row y))

end Screen

end Calculator.Terminal
