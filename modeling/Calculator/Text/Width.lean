import Calculator.Text.CharWidth
import Calculator.Text.Emoji

/-!
# The width of a text

The columns of a text are not always the sum over its characters: a sequence of emoji is drawn as
one, a variation selector makes a character wide or narrow, some scripts draw two letters as one
sign, and a line feed takes no column.

Such a sequence shows when the text is read **from its end**.  `Following` is what has to be
remembered of the characters that have been read, and `before` is one step: it says how many columns
the next character to the left adds and what is to be remembered then.  A step may also take a
column back that was counted too much.  `width` is the sum of the steps.  Where no character takes
part in a sequence each step adds the width of its character, so that `width` is the sum of the
widths (`width_eq_columns`).
-/

namespace Calculator.Text

/-! ## What follows -/

/-- **Characters that make one sign with a character before them.**  The flag `joined` says that a
joiner stands in front. -/
inductive Ligature where
  /-- An Arabic alef, which is drawn into a lam. -/
  | alef
  /-- A Hebrew lamed, which is drawn into a joined alef. -/
  | lamed (joined : Bool)
  /-- A Khmer letter that is drawn below another one after the sign that asks for it. -/
  | khmerLetter
  /-- A Buginese ya. -/
  | ya (joined : Bool)
  /-- A Buginese vowel sign and a joined ya, which are drawn into the letter a. -/
  | vowelYa
  /-- A Berber consonant. -/
  | tifinagh (joined : Bool)
  /-- A Berber consonant after the sign that joins two of them. -/
  | bondedTifinagh
  /-- The second of two Lisu tone letters. -/
  | toneLetter
  /-- An Old Turkic letter i. -/
  | orkhonI (joined : Bool)
deriving DecidableEq

/-- Puts a joiner in front. -/
def Ligature.join : Ligature → Ligature
  | lamed _ => lamed true
  | ya _ => ya true
  | tifinagh _ => tifinagh true
  | orkhonI _ => orkhonI true
  | l => l

/-- **What follows a character**, as far as it matters for its width. -/
inductive Following where
  /-- Nothing that matters. -/
  | plain
  | lineFeed
  /-- A variation selector. -/
  | selector (forEmoji : Bool)
  | skinTone
  /-- One regional indicator. -/
  | regional
  /-- Two regional indicators or more. -/
  | regionals
  /-- An emoji or a sequence that is one. -/
  | emoji
  /-- A joiner and an emoji, perhaps after the emoji selector. -/
  | joined (selected : Bool)
  /-- A keycap in front of a joiner, perhaps after the emoji selector. -/
  | joinedKeycap (selected : Bool)
  /-- One regional indicator in front of a joiner. -/
  | joinedRegional
  /-- Whole flags in front of a joiner, or flags and one indicator. -/
  | joinedRegionals (whole : Bool)
  /-- The end tag in front of a joiner, after some letters. -/
  | joinedLetters (count : Nat)
  /-- Letters and the end tag in front of a joiner, after some digits. -/
  | joinedDigits (count : Nat)
  /-- The Kirat Rai vowel sign e. -/
  | kiratE
  /-- Two of them, which are the sign ai. -/
  | kiratAi
  /-- Part of a ligature, perhaps after selectors. -/
  | ligature (part : Ligature) (plainSelected emojiSelected : Bool)
deriving DecidableEq

/-! ## Sets of letters -/

/-- The Arabic letters of the shape of alef (Joining_Group). -/
def isAlef (c : Char) : Bool :=
  CodePointSet.has [(0x0622, 0x0623), (0x0625, 0x0625), (0x0627, 0x0627), (0x0671, 0x0673),
    (0x0675, 0x0675), (0x0773, 0x0774), (0x0870, 0x0882)] c

/-- The Arabic letters of the shape of lam (Joining_Group). -/
def isLam (c : Char) : Bool :=
  CodePointSet.has [(0x0644, 0x0644), (0x06B5, 0x06B8), (0x076A, 0x076A), (0x08A6, 0x08A6),
    (0x08C7, 0x08C7)] c

/-- The Khmer letters that have a form below the line. -/
def isKhmerLetter (c : Char) : Bool :=
  CodePointSet.has [(0x1780, 0x1782), (0x1784, 0x1787), (0x1789, 0x178C), (0x178E, 0x1793),
    (0x1795, 0x1798), (0x179B, 0x179D), (0x17A0, 0x17A0), (0x17A2, 0x17A2), (0x17A7, 0x17A7),
    (0x17AB, 0x17AC), (0x17AF, 0x17AF)] c

/-- The Berber consonants. -/
def isTifinagh (c : Char) : Bool := CodePointSet.has [(0x2D31, 0x2D65), (0x2D6F, 0x2D6F)] c

/-- Ignorable marks, which may stand inside a ligature. -/
def isIgnorableMark (c : Char) : Bool :=
  CodePointSet.has [(0x034F, 0x034F), (0x17B4, 0x17B5), (0x180B, 0x180D), (0x180F, 0x180F),
    (0x200D, 0x200D), (0xFE00, 0xFE0F), (0xE0100, 0xE01EF)] c

/-- Characters without width that Arabic letters do not join across. -/
def joiningBreaks : CodePointSet :=
  [(0x0605, 0x0605), (0x0890, 0x0891), (0x08E2, 0x08E2), (0x09BE, 0x09BE), (0x09D7, 0x09D7),
   (0x0B3E, 0x0B3E), (0x0B57, 0x0B57), (0x0BBE, 0x0BBE), (0x0BD7, 0x0BD7), (0x0CC0, 0x0CC0),
   (0x0CC2, 0x0CC2), (0x0CC7, 0x0CC8), (0x0CCA, 0x0CCB), (0x0CD5, 0x0CD6), (0x0D3E, 0x0D3E),
   (0x0D4E, 0x0D4E), (0x0D57, 0x0D57), (0x0DCF, 0x0DCF), (0x0DDF, 0x0DDF), (0x1160, 0x11FF),
   (0x1715, 0x1715), (0x1734, 0x1734), (0x180E, 0x180E), (0x1B35, 0x1B35), (0x1B3B, 0x1B3B),
   (0x1B3D, 0x1B3D), (0x1B43, 0x1B44), (0x1BAA, 0x1BAA), (0x1BF2, 0x1BF3), (0x200C, 0x200D),
   (0x2065, 0x2069), (0x302E, 0x302F), (0x3164, 0x3164), (0xA8FA, 0xA8FA), (0xA953, 0xA953),
   (0xA9C0, 0xA9C0), (0xD7B0, 0xD7C6), (0xD7CB, 0xD7FB), (0xFF9E, 0xFFA0), (0xFFF0, 0xFFF8),
   (0x111C0, 0x111C0), (0x111C2, 0x111C3), (0x11235, 0x11235), (0x1133E, 0x1133E),
   (0x1134D, 0x1134D), (0x11357, 0x11357), (0x113B8, 0x113B8), (0x113C2, 0x113C2),
   (0x113C5, 0x113C5), (0x113C7, 0x113C9), (0x113CF, 0x113CF), (0x113D1, 0x113D1),
   (0x114B0, 0x114B0), (0x114BD, 0x114BD), (0x115AF, 0x115AF), (0x116B6, 0x116B6),
   (0x11930, 0x11930), (0x1193D, 0x1193D), (0x1193F, 0x1193F), (0x11941, 0x11941),
   (0x11A3A, 0x11A3A), (0x11A84, 0x11A89), (0x11D46, 0x11D46), (0x11F02, 0x11F02),
   (0x11F41, 0x11F41), (0x16FF0, 0x16FF1), (0x1D165, 0x1D166), (0x1D16D, 0x1D172),
   (0xE0000, 0xE0000), (0xE0002, 0xE001F), (0xE0080, 0xE00FF), (0xE01F0, 0xE0FFF)]

/-- Characters without width that Arabic letters join across (Joining_Type = Transparent). -/
def isTransparent (c : Char) : Bool := isZeroWidth c && !joiningBreaks.has c

/-! ## Selectors -/

namespace Following

/-- Whether the emoji selector follows. -/
def isEmojiSelected : Following → Bool
  | selector forEmoji => forEmoji
  | joined selected | joinedKeycap selected => selected
  | ligature _ _ emojiSelected => emojiSelected
  | _ => false

/-- Whether the selector of the plain form follows. -/
def isPlainSelected : Following → Bool
  | selector forEmoji => !forEmoji
  | ligature _ plainSelected _ => plainSelected
  | _ => false

/-- Whether a joiner follows, so that an emoji becomes part of the one behind it. -/
def isJoined : Following → Bool
  | joined _ | joinedKeycap _ => true
  | _ => false

/-- What follows when the emoji selector is passed over. -/
def withoutEmojiSelector : Following → Following
  | ligature part plainSelected _ => ligature part plainSelected false
  | _ => plain

/-- What follows when the selector of the plain form is passed over. -/
def withoutPlainSelector : Following → Following
  | ligature part _ emojiSelected => ligature part false emojiSelected
  | _ => plain

/-- Puts the emoji selector in front. -/
def select : Following → Following
  | ligature part plainSelected _ => ligature part plainSelected true
  | joined _ => joined true
  | joinedKeycap _ => joinedKeycap true
  | _ => selector true

/-- Puts the selector of the plain form in front. -/
def selectPlain : Following → Following
  | ligature part _ emojiSelected => ligature part true emojiSelected
  | _ => selector false

/-! ## A step to the left -/

/-- What a character is to the one before it. -/
def of (c : Char) : Following :=
  if c == textSelector then selector false
  else if c == emojiSelector then selector true
  else if isRegional c then regional
  else if isSkinTone c then skinTone
  else if emojis.has c then emoji
  else if isAlef c then ligature .alef false false
  else if c == '\u05dc' then ligature (.lamed false) false false
  else if isKhmerLetter c then ligature .khmerLetter false false
  else if c == '\u1a10' then ligature (.ya false) false false
  else if isTifinagh c then ligature (.tifinagh false) false false
  else if c == '\ua4fc' || c == '\ua4fd' then ligature .toneLetter false false
  else if c.toNat == 0x10C03 then ligature (.orkhonI false) false false
  else if c.toNat == 0x16D67 then kiratE
  else if c.toNat == 0x16D68 then kiratAi
  else plain

/-- The step for a character that makes no sequence with what follows. -/
def alone (c : Char) : Int × Following := (charWidth c, of c)

/-- The step in front of part of a ligature. -/
def beforeLigature (c : Char) (part : Ligature) : Int × Following :=
  if part ≠ .alef ∧ isIgnorableMark c then
    (0, ligature (if c = joiner then part.join else part) false false)
  else
    match part with
    | .alef =>
      if isLam c then (0, plain)
      else if isTransparent c then (0, ligature .alef false false)
      else alone c
    | .lamed true => if c = '\u05d0' then (0, plain) else alone c
    | .khmerLetter => if c = '\u17d2' then (-1, plain) else alone c
    | .ya true => if c = '\u1a17' then (0, ligature .vowelYa false false) else alone c
    | .vowelYa => if c = '\u1a15' then (0, plain) else alone c
    | .tifinagh afterJoiner =>
      if c = '\u2d7f' then (1, ligature .bondedTifinagh false false)
      else if afterJoiner ∧ isTifinagh c then (0, plain)
      else alone c
    | .bondedTifinagh => if isTifinagh c then (-1, plain) else alone c
    | .toneLetter => if '\ua4f8' ≤ c ∧ c ≤ '\ua4fb' then (0, plain) else alone c
    | .orkhonI true => if c.toNat = 0x10C32 then (0, plain) else alone c
    | _ => alone c

/-- The step in front of a joiner and an emoji: whatever may end an emoji becomes part of it. -/
def beforeJoined (c : Char) : Int × Following :=
  if c = keycap then (0, joinedKeycap false)
  else if isRegional c then (1, joinedRegional)
  else if isSkinTone c then (0, skinTone)
  else if isTagEnd c then (0, joinedLetters 0)
  else if of c = emoji then (0, emoji)
  else alone c

/-- The step in front of tags that a joiner follows: up to six letters, or three digits and then up
to four letters, after a flag. -/
def beforeTags (c : Char) (letters digits : Nat) : Int × Following :=
  if digits = 0 ∧ letters < 6 ∧ isTagLetter c then (0, joinedLetters (letters + 1))
  else if letters ≤ 4 ∧ digits < 3 ∧ isTagDigit c then (0, joinedDigits (digits + 1))
  else if (3 ≤ letters ∨ digits = 3) ∧ isTaggedFlag c then (0, emoji)
  else alone c

/-- The step in front of what follows, selectors apart. -/
def beforeSequence (c : Char) : Following → Int × Following
  | ligature part _ _ => beforeLigature c part
  | skinTone =>
    if tonedEmojis.has c then (0, emoji) else if c = joiner then (0, joined false) else alone c
  | regional => if isRegional c then (1, regionals) else alone c
  | regionals =>
    if isRegional c then (1, regionals) else if c = joiner then (0, joined false) else alone c
  | emoji => if c = joiner then (0, joined false) else alone c
  | joined _ => beforeJoined c
  | joinedRegional => if isRegional c then (-1, joinedRegionals true) else alone c
  | joinedRegionals whole =>
    if isRegional c then (if whole then (3, joinedRegionals false) else (-1, joinedRegionals true))
    else if c = joiner then (0, joined false)
    else alone c
  | joinedLetters count => beforeTags c count 0
  | joinedDigits count => beforeTags c 0 count
  | kiratE =>
    if c.toNat = 0x16D63 ∨ c.toNat = 0x16D69 then (0, plain)
    else if c.toNat = 0x16D67 then (0, kiratAi)
    else if c.toNat = 0x16D68 then (1, kiratE)
    else alone c
  | kiratAi => if c.toNat = 0x16D63 then (0, plain) else alone c
  | _ => alone c

/-- **A step to the left**: the columns that a character adds to what follows, and what follows the
character before it. -/
def before (c : Char) (following : Following) : Int × Following :=
  if following.isEmojiSelected && variableEmojis.has c then
    (if following.isJoined then 0 else 2, emoji)
  else
    let following :=
      if following.isEmojiSelected then following.withoutEmojiSelector else following
    if c ≤ '\u00a0' then
      if c = '\n' then (0, lineFeed)
      else if c = '\r' ∧ following = lineFeed then (0, plain)
      else (1, plain)
    else if c = emojiSelector then (0, following.select)
    else if c = textSelector then (0, following.selectPlain)
    else if following.isPlainSelected && isNarrowAsText c then (1, plain)
    else
      beforeSequence c
        (if following.isPlainSelected then following.withoutPlainSelector else following)

end Following

/-! ## Width -/

/-- The columns of a text so far, together with what follows the character before it. -/
def measure (text : List Char) : Int × Following :=
  text.foldr
    (fun c (columns, following) =>
      let (added, following) := Following.before c following
      (columns + added, following))
    (0, .plain)

/-- **The columns that a text takes.** -/
def width (text : List Char) : Nat := (measure text).1.toNat

@[simp] theorem measure_nil : measure [] = (0, .plain) := rfl

theorem measure_cons (c : Char) (text : List Char) :
    measure (c :: text) =
      ((measure text).1 + (Following.before c (measure text).2).1,
        (Following.before c (measure text).2).2) := rfl

@[simp] theorem width_nil : width [] = 0 := rfl

/-- **A character that takes part in no sequence**, whatever follows it or stands before it, when
that is another such character. -/
def isSolitary (c : Char) : Bool := c != '\n' && Following.of c == .plain

theorem Following.before_plain {c : Char} (h : isSolitary c = true) :
    Following.before c .plain = ((charWidth c : Int), .plain) := by
  simp only [isSolitary, Bool.and_eq_true, bne_iff_ne, ne_eq, beq_iff_eq] at h
  obtain ⟨hline, hof⟩ := h
  have hemoji : c ≠ emojiSelector := by
    rintro rfl
    revert hof
    decide
  have htext : c ≠ textSelector := by
    rintro rfl
    revert hof
    decide
  simp only [before, isEmojiSelected, isPlainSelected, Bool.false_and, Bool.false_eq_true, if_false,
    hline, hemoji, htext, reduceCtorEq, and_false, beforeSequence, alone, hof]
  split
  next hle => simp [charWidth, hle]
  next => rfl

/-- **Where no character takes part in a sequence** the columns of a text are those of its
characters. -/
theorem width_eq_columns {text : List Char} (h : ∀ c ∈ text, isSolitary c = true) :
    width text = columns text := by
  have hmeasure : measure text = ((columns text : Int), .plain) := by
    induction text with
    | nil => rfl
    | cons c rest ih =>
      rw [measure_cons, ih fun d hd => h d (List.mem_cons_of_mem c hd),
        Following.before_plain (h c List.mem_cons_self)]
      simp [Int.add_comm]
  simp [width, hmeasure]

end Calculator.Text
