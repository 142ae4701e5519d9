import Calculator.Keypad.State
import Calculator.Terminal.Size

/-!
# Events

Drawings and events change the state by turns.  `State.refresh` is what drawing does to the state:
it notes where the buttons are.  `State.handle` is what an event does.

While the help is open it is the only thing that is drawn and the keys that scroll or close it are
the only ones that do anything, apart from those pressed together with the control key.
-/

namespace Calculator.Keypad

open Terminal

/-! ## Events -/

/-- The keys that mean something. -/
inductive KeyCode where
  | char (c : Char)
  | enter
  | backspace
  | esc
  | up
  | down
  | pageUp
  | pageDown
  | f1
  | other
deriving DecidableEq

/-- What happens to a key. -/
inductive KeyKind where
  | press
  | release
  | autoRepeat
deriving DecidableEq

/-- What the mouse does. -/
inductive MouseKind where
  | leftDown
  | scrollUp
  | scrollDown
  | other
deriving DecidableEq

/-- **An event.** -/
inductive Event where
  | key (code : KeyCode) (control : Bool) (kind : KeyKind)
  | mouse (kind : MouseKind) (x y : Nat)
  /-- Anything else, which changes nothing. -/
  | ignored
deriving DecidableEq

/-- The plain press of a character key. -/
def Event.type (c : Char) : Event := .key (.char c) false .press

/-- **What the clipboard does** when a text is copied. -/
inductive Clipboard where
  | works
  | unreachable
  | refuses
deriving DecidableEq

/-- Whether the keypad cannot be drawn in a size. -/
def isTooSmall (size : Size) : Bool := size.width < minWidth || size.height < minHeight

/-- The characters that can be typed. -/
def isTyped (c : Char) : Bool := c.isDigit || isFiltered c || c == '(' || c == ')'

/-- The largest count of lines that the help can be scrolled by. -/
def maxScroll : Nat := 0xffffffffffffffff

namespace State

/-! ## Drawing -/

/-- **What drawing does to the state.**  The buttons are where they have been drawn, in the part of
the screen that is used; behind the help nothing is drawn and nothing changes. -/
def refresh (size : Size) (s : State) : State :=
  if s.showHelp then s
  else
    let used := size.limited
    { s with
      tooSmall := isTooSmall used
      buttonAreas := if isTooSmall used then [] else Keypad.buttonAreas used.width used.height }

/-! ## Keys -/

/-- Copies the result. -/
def copyResult (clipboard : Clipboard) (s : State) : State :=
  match clipboard with
  | .works => { s with copied := some s.result, status := some ("Copied " ++ s.result) }
  | .unreachable => { s with status := some "Failed to access clipboard" }
  | .refuses => { s with status := some "Failed to copy to clipboard" }

/-- What a key does together with the control key. -/
def handleControl (clipboard : Clipboard) (s : State) : KeyCode → State
  | .char 'q' | .char 'Q' => { s with shouldQuit := true }
  | .char 'c' | .char 'C' => s.copyResult clipboard
  | .char 'u' | .char 'U' => s.clear
  | _ => s

/-- Scrolls the help down. -/
def scrollDown (s : State) (lines : Nat) : State :=
  { s with helpScroll := min (s.helpScroll + lines) maxScroll }

/-- Scrolls the help up. -/
def scrollUp (s : State) (lines : Nat) : State := { s with helpScroll := s.helpScroll - lines }

/-- Opens the help at its start. -/
def openHelp (s : State) : State := { s with showHelp := true, helpScroll := 0 }

/-- Closes the help. -/
def closeHelp (s : State) : State := { s with showHelp := false, helpScroll := 0 }

/-- What a key does while the help is open. -/
def handleHelpKey (s : State) : KeyCode → State
  | .down => s.scrollDown 1
  | .up => s.scrollUp 1
  | .pageDown => s.scrollDown 10
  | .pageUp => s.scrollUp 10
  | .esc | .f1 => s.closeHelp
  | _ => s

/-- What a key does at the keypad. -/
def handleKeypadKey (s : State) : KeyCode → State
  | .char c =>
    if c = '=' then s.calculate
    else if isTyped c then s.press c.toString
    else s
  | .enter => s.calculate
  | .backspace => s.backspace
  | .esc => s.clear
  | .f1 => s.openHelp
  | .up | .down | .pageUp | .pageDown | .other => s

/-- **What the press of a key does.** -/
def handleKey (clipboard : Clipboard) (s : State) (code : KeyCode) (control : Bool) : State :=
  if control then s.handleControl clipboard code
  else if s.showHelp then s.handleHelpKey code
  else s.handleKeypadKey code

/-! ## The mouse -/

/-- **What the mouse does**: it scrolls the help and presses buttons. -/
def handleMouse (s : State) (kind : MouseKind) (x y : Nat) : State :=
  match kind, s.showHelp with
  | .scrollDown, true => s.scrollDown 3
  | .scrollUp, true => s.scrollUp 3
  | .leftDown, false => s.click x y
  | _, _ => s

/-! ## Any event -/

/-- **What an event does.**  Of a key only the press counts. -/
def handle (clipboard : Clipboard) (s : State) : Event → State
  | .key code control .press => s.handleKey clipboard code control
  | .mouse kind x y => s.handleMouse kind x y
  | _ => s

@[simp] theorem refresh_refresh (size : Size) (s : State) :
    (s.refresh size).refresh size = s.refresh size := by
  cases h : s.showHelp <;> simp [refresh, h]

end State

end Calculator.Keypad
