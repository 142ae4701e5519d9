/-!
# Blank characters

Two notions of blank meet in this library.  `isBlank` is the Unicode property White_Space, which
decides whether a text is empty, what trimming removes and what may stand between a called word and
its parenthesis.  The separators between tokens are only four of these characters and belong to the
lexer.
-/

namespace Calculator.Text

/-- **Unicode White_Space**, all 25 characters of it. -/
def isBlank (c : Char) : Bool :=
  let n := c.toNat
  (0x09 ≤ n && n ≤ 0x0D) || n == 0x20 || n == 0x85 || n == 0xA0 || n == 0x1680 ||
    (0x2000 ≤ n && n ≤ 0x200A) || n == 0x2028 || n == 0x2029 || n == 0x202F || n == 0x205F ||
    n == 0x3000

theorem isBlank_of_isWhitespace {c : Char} (h : c.isWhitespace = true) : isBlank c = true := by
  simp only [Char.isWhitespace, Bool.or_eq_true, decide_eq_true_eq] at h
  rcases h with ((rfl | rfl) | rfl) | rfl <;> decide

/-- Whether every character is blank; so is the empty text. -/
def allBlank (text : List Char) : Bool := text.all isBlank

/-- Drops the blanks on both sides. -/
def trim (text : List Char) : List Char :=
  ((text.dropWhile isBlank).reverse.dropWhile isBlank).reverse

@[simp] theorem trim_nil : trim [] = [] := rfl

theorem dropWhile_isBlank_eq_nil_iff {text : List Char} :
    text.dropWhile isBlank = [] ↔ allBlank text = true := by
  induction text with
  | nil => simp [allBlank]
  | cons c rest ih => by_cases h : isBlank c = true <;> simp_all [allBlank]

theorem trim_eq_nil_iff {text : List Char} : trim text = [] ↔ allBlank text = true := by
  rw [trim, List.reverse_eq_nil_iff, dropWhile_isBlank_eq_nil_iff]
  simp only [allBlank, List.all_reverse]
  induction text with
  | nil => rfl
  | cons c rest ih =>
    by_cases h : isBlank c = true
    · simpa [h] using ih
    · simp [h]

end Calculator.Text
