/-!
# Text without control sequences

A text that comes from outside may hold sequences that a terminal would obey.  `printable` takes
them out, together with all control characters but the common blanks, so that the rest can be shown
as it is.  Reading goes from left to right; `Sequence` says in what kind of sequence the next
character stands.
-/

namespace Calculator.Text

/-- **The kinds of control sequences.** -/
inductive Sequence where
  /-- After the escape character. -/
  | escape
  /-- After the escape character and a mark of a longer escape sequence. -/
  | longEscape
  /-- A command with parameters, up to its letter. -/
  | command
  /-- A text for the terminal, such as a title, which a bell ends. -/
  | title
  /-- Any other text for the terminal, which only an escape sequence ends. -/
  | message
deriving DecidableEq

/-- The control characters that are kept. -/
def isKeptControl (c : Char) : Bool := c == '\t' || c == '\n' || c == '\r' || c == '\x0c'

/-- Whether a character is a control character of ASCII. -/
def isControl (c : Char) : Bool := c < ' ' || c == '\x7f'

/-- The sequence that the character after the escape character begins; `none` if it ends it. -/
def Sequence.ofIntroducer (c : Char) : Option Sequence :=
  if c == '[' then some command
  else if c == ']' then some title
  else if c == 'P' || c == 'X' || c == '^' || c == '_' then some message
  else if ' ' ≤ c && c ≤ '/' then some longEscape
  else if '0' ≤ c && c ≤ '~' then none
  else some escape

/-- The sequence after a character in it; `none` if the character is its last. -/
def Sequence.after (c : Char) : Sequence → Option Sequence
  | escape => ofIntroducer c
  | longEscape => if '0' ≤ c && c ≤ '~' then none else some longEscape
  | command => if '@' ≤ c && c ≤ '~' then none else some command
  | title => if c == '\x07' then none else some title
  | message => some message

/-- Whether control characters inside a sequence keep their meaning. -/
def Sequence.obeysControls : Sequence → Bool
  | escape | longEscape | command => true
  | title | message => false

/-- The printable part of a text that begins inside a sequence, or outside of any. -/
def printableFrom : Option Sequence → List Char → List Char
  | _, [] => []
  | state, c :: rest =>
    if c == '\x1b' then printableFrom (some .escape) rest
    else if c == '\x18' || c == '\x1a' then printableFrom none rest
    else
      match state with
      | none =>
        if isControl c && !isKeptControl c then printableFrom none rest
        else c :: printableFrom none rest
      | some sequence =>
        if sequence.obeysControls && isKeptControl c then c :: printableFrom none rest
        else printableFrom (sequence.after c) rest

/-- **The printable part of a text.** -/
def printable (text : String) : String := String.ofList (printableFrom none text.toList)

theorem printableFrom_eq_self {text : List Char} (h : ∀ c ∈ text, isControl c = false) :
    printableFrom none text = text := by
  induction text with
  | nil => rfl
  | cons c rest ih =>
    have hc := h c List.mem_cons_self
    have hne : ∀ d, isControl d = true → c ≠ d := by
      rintro d hd rfl
      simp [hc] at hd
    simp [printableFrom, hc, hne '\x1b' (by decide), hne '\x18' (by decide),
      hne '\x1a' (by decide), ih fun d hd => h d (List.mem_cons_of_mem c hd)]

end Calculator.Text
