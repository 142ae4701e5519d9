import Calculator.Terminal.Area

/-!
# The buttons

The keypad is a grid of five rows of four buttons.  Each button has a label, an action and a tone;
where it stands depends on the size of the screen alone and is computed by `buttonAreas`, which
splits the rows below the display into equal parts.
-/

namespace Calculator.Keypad

open Terminal

/-- **What a button does.** -/
inductive Action where
  /-- Types a token. -/
  | insert (token : String)
  | clear
  | backspace
  | calculate
deriving DecidableEq

/-- How a button is coloured. -/
inductive Tone where
  | base
  | operator
  | equals
  | danger
deriving DecidableEq

/-- **A button.** -/
structure Button where
  label : String
  action : Action
  tone : Tone
deriving DecidableEq

/-- The button of a digit or of the point, which types its label. -/
def Button.digit (label : String) : Button := ⟨label, .insert label, .base⟩

/-- The button of an operator, which types its label. -/
def Button.operator (label : String) : Button := ⟨label, .insert label, .operator⟩

/-- **The keypad**, row by row. -/
def layout : List (List Button) :=
  [ [⟨"C", .clear, .danger⟩, ⟨"⌫", .backspace, .operator⟩, .operator "%", .operator "/"],
    [.digit "7", .digit "8", .digit "9", .operator "*"],
    [.digit "4", .digit "5", .digit "6", .operator "-"],
    [.digit "1", .digit "2", .digit "3", .operator "+"],
    [.digit "0", .digit ".", .operator "//", ⟨"=", .calculate, .equals⟩] ]

/-- How many rows of buttons there are. -/
def rowCount : Nat := 5

/-- How many buttons a row has. -/
def columnCount : Nat := 4

/-- The rows above the keypad: four for the display and one for the status. -/
def keypadTop : Nat := 5

/-- The least width of a screen on which the keypad is drawn. -/
def minWidth : Nat := 28

/-- The least height of a screen on which the keypad is drawn. -/
def minHeight : Nat := 20

/-- **The area of the button in row `i` and column `j`** on a screen of the given size. -/
def cellArea (width height i j : Nat) : Area :=
  let left := splitEdge width columnCount j
  let top := splitEdge (height - keypadTop) rowCount i
  ⟨left, keypadTop + top,
    splitEdge width columnCount (j + 1) - left,
    splitEdge (height - keypadTop) rowCount (i + 1) - top⟩

/-- The buttons with the areas they are drawn in, row by row. -/
def placed (width height : Nat) : List (Area × Button) :=
  (layout.zipIdx.map fun (row, i) =>
    row.zipIdx.map fun (button, j) => (cellArea width height i j, button)).flatten

/-- **The areas of the keypad** and the action that a click into each triggers. -/
def buttonAreas (width height : Nat) : List (Area × Action) :=
  (placed width height).map fun (area, button) => (area, button.action)

@[simp] theorem length_buttonAreas (width height : Nat) :
    (buttonAreas width height).length = 20 := by
  simp [buttonAreas, placed, layout, List.zipIdx]

end Calculator.Keypad
