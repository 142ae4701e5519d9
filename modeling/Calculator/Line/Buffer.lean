import Calculator.Text.Utf8

/-!
# The edited line

A line that is being typed is its text and a cursor, counted in characters from the start of the
line.  Every edit of the text goes through the byte offset of the cursor.  An edit whose key has
nothing to act on, such as a backspace at the start of the line, leaves the line as it is.

`Buffer.before` and `Buffer.after` are the two sides of the cursor; the lemmas say what each edit
does to them as long as the cursor is inside the line.
-/

namespace Calculator.Line

open Text

/-- **A key** as it is read from the terminal.  Control characters that stand for a letter pressed
together with the control key are `control`; the enter key is the character of a line feed. -/
inductive Key where
  | char (c : Char)
  | control (c : Char)
  | backspace
  | delete
  | left
  | right
  | home
  | endKey
  /-- Any key that the editor has no use for. -/
  | other
deriving DecidableEq

/-- **A line with its cursor.** -/
structure Buffer where
  text : List Char
  cursor : Nat
deriving DecidableEq

namespace Buffer

/-- The empty line. -/
def empty : Buffer := ⟨[], 0⟩

/-- The text before the cursor. -/
def before (b : Buffer) : List Char := b.text.take b.cursor

/-- The text after the cursor. -/
def after (b : Buffer) : List Char := b.text.drop b.cursor

/-- Types a character at the cursor. -/
def insert (b : Buffer) (c : Char) : Buffer :=
  match insertAt? b.text b.cursor c with
  | some text => ⟨text, b.cursor + 1⟩
  | none => b

/-- Removes the character after the cursor. -/
def removeNext (b : Buffer) : Buffer :=
  match removeAt? b.text b.cursor with
  | some text => ⟨text, b.cursor⟩
  | none => b

/-- Moves the cursor to a place in the line. -/
def moveTo (b : Buffer) (cursor : Nat) : Buffer := ⟨b.text, cursor⟩

/-- **What a key does to the line.**  Keys that end the line or the session do nothing to it. -/
def edit (b : Buffer) : Key → Buffer
  | .char c => b.insert c
  | .backspace => if 0 < b.cursor then (b.moveTo (b.cursor - 1)).removeNext else b
  | .delete => if b.cursor < b.text.length then b.removeNext else b
  | .left => if 0 < b.cursor then b.moveTo (b.cursor - 1) else b
  | .right => if b.cursor < b.text.length then b.moveTo (b.cursor + 1) else b
  | .home => b.moveTo 0
  | .endKey => b.moveTo b.text.length
  | .control _ | .other => b

/-! ## The two sides of the cursor -/

@[simp] theorem before_append_after (b : Buffer) : b.before ++ b.after = b.text :=
  List.take_append_drop _ _

theorem insert_eq (b : Buffer) (c : Char) :
    b.insert c = ⟨b.before ++ c :: b.after, b.cursor + 1⟩ := by
  simp [insert, before, after]

theorem removeNext_eq (b : Buffer) : b.removeNext = ⟨b.before ++ b.after.drop 1, b.cursor⟩ := by
  simp [removeNext, before, after]

theorem before_insert {b : Buffer} (h : b.cursor ≤ b.text.length) (c : Char) :
    (b.insert c).before = b.before ++ [c] := by
  simp [insert_eq, before, List.take_append, List.take_take, Nat.min_eq_left h]

theorem after_insert {b : Buffer} (h : b.cursor ≤ b.text.length) (c : Char) :
    (b.insert c).after = b.after := by
  simp [insert_eq, before, after, List.drop_append, Nat.min_eq_left h]

end Buffer

end Calculator.Line
