import Calculator.Keypad.Event
import Calculator.Keypad.Help
import Calculator.Text.Highlight
import Calculator.Text.Tail

/-!
# What the calculator looks like

`State.view` draws a state on a screen of a given size.  From top to bottom there are the display,
which shows the expression and the result, a status row, and the keypad.  When the help is open it
takes the whole screen, and on a screen that is too small a message does.  Only the drawing of the
help can break off.

The state that is drawn is one that has been refreshed for the size of the screen.
-/

namespace Calculator.Keypad

open Terminal

/-! ## Colours -/

namespace Palette

/-- The background of the display. -/
def panel : Color := .rgb 0x11 0x18 0x27

/-- The background of a digit button. -/
def button : Color := .rgb 0x1f 0x29 0x37

/-- The background of an operator button. -/
def operator : Color := .rgb 0x33 0x41 0x55

/-- The background of the button that calculates. -/
def equals : Color := .rgb 0x25 0x63 0xeb

/-- What clears, and errors. -/
def danger : Color := .rgb 0xef 0x44 0x44

/-- Ordinary text. -/
def foreground : Color := .rgb 0xe5 0xe7 0xeb

/-- Text that stays in the background. -/
def muted : Color := .rgb 0x9c 0xa3 0xaf

end Palette

/-- The background and the text colour of a button. -/
def Tone.colours : Tone → Color × Color
  | base => (Palette.button, Palette.foreground)
  | operator => (Palette.operator, Palette.foreground)
  | equals => (Palette.equals, .white)
  | danger => (Palette.danger, .white)

/-- The style of a piece of an expression, on a base style for what is neither number nor
operator. -/
def roleStyle (base : Style) : Text.Role → Style
  | .number => .ink .lightGreen
  | .operator => .boldInk .yellow
  | .plain => base

/-- The span of a piece of an expression. -/
def pieceSpan (base : Style) (piece : Text.Piece) : Span := ⟨piece.text, roleStyle base piece.role⟩

/-- **A highlighted expression.** -/
def highlighted (expression : List Char) (base : Style := .ink Palette.foreground) : TextLine :=
  (Text.pieces expression).map (pieceSpan base)

/-! ## The parts of the screen -/

/-- The frame of the display. -/
def displayFrame : Frame where
  border := .rounded
  borderStyle := .ink .darkGray
  style := .paper Palette.panel
  title := " SafeCalc "

/-- **The display**: the expression above the result, both cut to the end that fits. -/
def drawDisplay (s : State) (screen : Screen) : Screen :=
  let area : Area := ⟨0, 0, screen.width, 4⟩
  let columns := area.inside.width - 1
  let colour := if s.lastError.isSome then Palette.danger else .white
  (screen.drawFrame area displayFrame).drawLines area.inside .right
    [ highlighted (Text.tail s.input.toList columns),
      [⟨Text.tail s.result.toList columns, .boldInk colour⟩] ]

/-- The keys that the status row explains when there is nothing else to say. -/
def keyHints : TextLine :=
  [("Enter", "Calculate"), ("Esc", "Clear"), ("^C", "Copy"), ("F1", "Help"), ("^Q", "Quit")].flatMap
    fun (key, meaning) =>
      [Span.of key (.boldInk .yellow), Span.of (" " ++ meaning ++ " ") (.ink .darkGray)]

/-- **The status row**: the last error, else a message, else the keys. -/
def statusLine (s : State) : TextLine :=
  match s.lastError, s.status with
  | some e, _ => TextLine.of (" " ++ e.message) (.ink Palette.danger)
  | none, some message => TextLine.of (" " ++ message) (.ink Palette.muted)
  | none, none => keyHints

/-- Draws the status row. -/
def drawStatus (s : State) (screen : Screen) : Screen :=
  screen.drawLines ⟨0, 4, screen.width, 1⟩ .left [statusLine s]

/-- Draws a button with its label in the middle. -/
def drawButton (screen : Screen) (area : Area) (button : Button) : Screen :=
  let (background, foreground) := button.tone.colours
  let frame : Frame :=
    { border := .rounded, borderStyle := .ink .black, style := .paper background }
  let inside := area.inside
  let middle : Area := ⟨inside.x, inside.y + inside.height / 2, inside.width, min 1 inside.height⟩
  (screen.drawFrame area frame).drawLines middle .centre
    [TextLine.of button.label (.boldInk foreground)]

/-- **The keypad.** -/
def drawKeypad (screen : Screen) : Screen :=
  (placed screen.width screen.height).foldl
    (fun screen (area, button) => drawButton screen area button) screen

/-- The lines that ask for a larger screen. -/
def tooSmallText (screen : Screen) : List TextLine :=
  [ TextLine.of
      ("Terminal too small! Min size: " ++ toString minWidth ++ "x" ++ toString minHeight ++
        ". Current: " ++ toString screen.width ++ "x" ++ toString screen.height)
      (.boldInk .red),
    [],
    TextLine.of "Please resize your terminal window" (.ink .yellow) ]

/-- The frame of the message that the screen is too small. -/
def tooSmallFrame : Frame where
  borderStyle := .ink .red
  title := " Resize Required "

/-- Asks for a larger screen. -/
def drawTooSmall (screen : Screen) : Screen :=
  let inside := screen.area.inside
  (screen.drawFrame screen.area tooSmallFrame).drawParagraph inside .centre
    (wrapLines inside.width (tooSmallText screen))

/-! ## The whole screen -/

/-- **What a state looks like** on the used part of a screen of the given size, if the drawing does
not break off. -/
def State.view (s : State) (size : Size) : Option Screen :=
  let used := size.limited
  let screen := Screen.blank used.width used.height
  if s.showHelp then drawHelp s.helpScroll screen
  else if isTooSmall used then some (drawTooSmall screen)
  else some (drawKeypad (drawStatus s (drawDisplay s screen)))

end Calculator.Keypad
