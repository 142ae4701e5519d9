import Calculator.Line.Session

/-!
# The line as its two sides

An editor that keeps the text before the cursor and the text after it has no cursor to compute with:
typing adds to the end of one side, and moving takes a character from one side to the other.  The
edited line does the same with one text and a cursor (`Sides.edit_buffer`), so its cursor is always
the length of the first side.

The text is stored as UTF-8 and is cut at byte offsets, which must not lie inside of a character.
`IsBoundary` is the notion of the core library, and cutting succeeds at boundaries only
(`splitAtByte?_isSome_iff`).  Every offset that the editor uses is one (`Buffer.isBoundary_of_mem`).
-/

namespace Calculator

/-! ## Byte offsets -/

namespace Text

variable {text : List Char} {offset index : Nat}

/-- **A byte offset at which a text can be cut**: it lies inside of the text or at its end, and
not inside of a character. -/
def IsBoundary (text : List Char) (offset : Nat) : Prop :=
  String.Pos.Raw.IsValid (String.ofList text) ⟨offset⟩

theorem utf8ByteSize_ofList (text : List Char) :
    (String.ofList text).utf8ByteSize = utf8Length text := by
  induction text with
  | nil => rfl
  | cons c rest ih =>
    rw [utf8Length_cons, ← ih]
    simp [String.ofList_cons]

/-- The boundaries are the offsets of the characters, and of the end. -/
theorem isBoundary_iff : IsBoundary text offset ↔ ∃ index, offset = byteOffset text index := by
  simp only [IsBoundary, String.Pos.Raw.isValid_ofList, utf8ByteSize_ofList, byteOffset]

theorem isBoundary_byteOffset (text : List Char) (index : Nat) :
    IsBoundary text (byteOffset text index) :=
  isBoundary_iff.2 ⟨index, rfl⟩

theorem of_splitAtByte?_eq_some {before after : List Char}
    (h : splitAtByte? offset text = some (before, after)) :
    text = before ++ after ∧ offset = utf8Length before := by
  fun_induction splitAtByte? offset text generalizing before with
  | case1 text =>
    cases h
    exact ⟨rfl, rfl⟩
  | case2 offset => cases h
  | case3 offset c rest hfits ih =>
    obtain ⟨⟨front, behind⟩, hrest, hpair⟩ := Option.map_eq_some_iff.1 h
    cases hpair
    obtain ⟨htext, hoffset⟩ := ih hrest
    refine ⟨congrArg (c :: ·) htext, ?_⟩
    rw [utf8Length_cons, ← hoffset, Nat.add_sub_cancel' hfits]
  | case4 offset c rest hinside => cases h

/-- **A text can be cut at its boundaries only.** -/
theorem splitAtByte?_isSome_iff :
    (splitAtByte? offset text).isSome = true ↔ IsBoundary text offset := by
  constructor
  · intro h
    obtain ⟨⟨before, after⟩, hsplit⟩ := Option.isSome_iff_exists.1 h
    obtain ⟨rfl, rfl⟩ := of_splitAtByte?_eq_some hsplit
    refine isBoundary_iff.2 ⟨before.length, ?_⟩
    rw [byteOffset, List.take_left]
  · intro h
    obtain ⟨index, rfl⟩ := isBoundary_iff.1 h
    rw [splitAtByte?_byteOffset]
    rfl

theorem utf8Length_append (before after : List Char) :
    utf8Length (before ++ after) = utf8Length before + utf8Length after := by
  induction before with
  | nil => simp
  | cons c rest ih => simp [ih, Nat.add_assoc]

theorem byteOffset_succ {c : Char} (h : text[index]? = some c) :
    byteOffset text (index + 1) = byteOffset text index + c.utf8Size := by
  simp [byteOffset, List.take_add_one, h, utf8Length_append]

/-- Takes out the bytes between two offsets. -/
def drain? (text : List Char) (start stop : Nat) : Option (List Char) := do
  let (before, _) ← splitAtByte? start text
  let (_, after) ← splitAtByte? stop text
  return before ++ after

/-- **Removing a character is taking out its bytes.** -/
theorem removeAt?_eq_drain? {c : Char} (h : text[index]? = some c) :
    removeAt? text index =
      drain? text (byteOffset text index) (byteOffset text index + c.utf8Size) := by
  rw [← byteOffset_succ h]
  simp [drain?]

end Text

namespace Line

open Text

/-! ## The two sides of the cursor -/

/-- **The text on the two sides of the cursor.** -/
structure Sides where
  before : List Char
  after : List Char
deriving DecidableEq

namespace Sides

/-- Nothing on either side. -/
def empty : Sides := ⟨[], []⟩

/-- **What a key does to the two sides.**  What would be taken from an empty side is not there, so
that nothing happens. -/
def edit (s : Sides) : Key → Sides
  | .char c => ⟨s.before ++ [c], s.after⟩
  | .backspace => ⟨s.before.dropLast, s.after⟩
  | .delete => ⟨s.before, s.after.tail⟩
  | .left => ⟨s.before.dropLast, s.before.getLast?.toList ++ s.after⟩
  | .right => ⟨s.before ++ s.after.head?.toList, s.after.tail⟩
  | .home => ⟨[], s.before ++ s.after⟩
  | .endKey => ⟨s.before ++ s.after, []⟩
  | .control _ | .other => s

/-- **The line that has these sides.** -/
def buffer (s : Sides) : Buffer := ⟨s.before ++ s.after, s.before.length⟩

@[simp] theorem before_buffer (s : Sides) : s.buffer.before = s.before := by
  simp [buffer, Buffer.before]

/-- **A key does to the line what it does to the two sides.** -/
theorem edit_buffer (s : Sides) (key : Key) : s.buffer.edit key = (s.edit key).buffer := by
  obtain ⟨before, after⟩ := s
  cases key with
  | char c => simp [Buffer.edit, Buffer.insert_eq, edit, buffer, Buffer.before, Buffer.after]
  | backspace =>
    obtain rfl | ⟨front, c, rfl⟩ := List.eq_nil_or_concat before
    · rfl
    · simp [Buffer.edit, Buffer.moveTo, Buffer.removeNext, edit, buffer]
  | delete =>
    cases after with
    | nil => simp [Buffer.edit, edit, buffer]
    | cons c rest => simp [Buffer.edit, Buffer.removeNext, edit, buffer]
  | left =>
    obtain rfl | ⟨front, c, rfl⟩ := List.eq_nil_or_concat before
    · rfl
    · simp [Buffer.edit, Buffer.moveTo, edit, buffer]
  | right =>
    cases after with
    | nil => simp [Buffer.edit, edit, buffer]
    | cons c rest => simp [Buffer.edit, Buffer.moveTo, edit, buffer]
  | home => rfl
  | endKey => simp [Buffer.edit, Buffer.moveTo, edit, buffer]
  | control c => rfl
  | other => rfl

/-- **The line after any keys** has the sides after these keys. -/
theorem foldl_edit_buffer (s : Sides) (keys : List Key) :
    keys.foldl Buffer.edit s.buffer = (keys.foldl edit s).buffer := by
  induction keys generalizing s with
  | nil => rfl
  | cons key rest ih => rw [List.foldl_cons, edit_buffer, ih, List.foldl_cons]

theorem scanl_edit_buffer (s : Sides) (keys : List Key) :
    keys.scanl Buffer.edit s.buffer = (keys.scanl edit s).map buffer := by
  induction keys generalizing s with
  | nil => rfl
  | cons key rest ih => rw [List.scanl_cons, List.scanl_cons, edit_buffer, ih, List.map_cons]

end Sides

/-! ## The offsets that are used -/

/-- The offsets between which the bytes of a character are taken out; of the end of the text there
is only one. -/
def removalOffsets (text : List Char) (index : Nat) : List Nat :=
  byteOffset text index :: (text[index]?.map fun c => byteOffset text index + c.utf8Size).toList

/-- **The byte offsets that are used** when the line is drawn and a key is handled then.  The first
one is where the line is cut to count the characters before the cursor. -/
def Buffer.offsets (b : Buffer) (key : Key) : List Nat :=
  byteOffset b.text b.cursor ::
    match key with
    | .char _ => [byteOffset b.text b.cursor]
    | .backspace => if 0 < b.cursor then removalOffsets b.text (b.cursor - 1) else []
    | .delete => if b.cursor < b.text.length then removalOffsets b.text b.cursor else []
    | .left | .right | .home | .endKey | .control _ | .other => []

theorem isBoundary_of_mem_removalOffsets {text : List Char} {index offset : Nat}
    (h : offset ∈ removalOffsets text index) : IsBoundary text offset := by
  rw [removalOffsets, List.mem_cons, Option.mem_toList, Option.map_eq_some_iff] at h
  obtain rfl | ⟨c, hc, rfl⟩ := h
  · exact isBoundary_byteOffset text index
  · rw [← byteOffset_succ hc]
    exact isBoundary_byteOffset text (index + 1)

/-- **No offset lies inside of a character or beyond the end.** -/
theorem Buffer.isBoundary_of_mem {b : Buffer} {key : Key} {offset : Nat}
    (h : offset ∈ b.offsets key) : IsBoundary b.text offset := by
  unfold offsets at h
  rcases List.mem_cons.1 h with rfl | hedit
  · exact isBoundary_byteOffset b.text b.cursor
  · cases key with
    | char c =>
      rw [List.mem_singleton.1 hedit]
      exact isBoundary_byteOffset b.text b.cursor
    | backspace | delete =>
      simp only at hedit
      split at hedit
      · exact isBoundary_of_mem_removalOffsets hedit
      · cases hedit
    | _ => cases hedit

/-! ## Sessions -/

@[simp] theorem Transcript.after_after (t : Transcript) (later earlier : List String) :
    (t.after later).after earlier = t.after (earlier ++ later) := by
  simp [after]

/-- Whether a key edits the line; the others end it or the session. -/
def Key.edits : Key → Bool
  | .char '\n' | .control 'c' | .control 'd' => false
  | _ => true

/-- A character that is typed edits the line unless it is a line feed. -/
theorem Key.edits_char {c : Char} (hc : c ≠ '\n') : (char c).edits = true := by
  unfold edits
  split
  case h_1 hnewline =>
    cases hnewline
    exact absurd rfl hc
  case h_2 hcontrol | h_3 hcontrol => cases hcontrol
  case h_4 => rfl

/-- A line that is drawn has the cursor behind the characters before it. -/
theorem toNat_cursorColumn {count : Nat} (h : count ≤ 65532) :
    (cursorColumn count).toNat = 3 + count := by
  simp only [cursorColumn, UInt16.toNat_add, UInt16.toNat_ofNat']
  have hthree : UInt16.toNat 3 = 3 := rfl
  omega

/-- **How the line is drawn.** -/
theorem redraw_buffer (row : Nat) {s : Sides} (h : s.before.length ≤ 65532) :
    redraw row s.buffer =
      goTo 1 row ++ eraseRow ++ "> " ++ String.ofList (s.before ++ s.after) ++
        goTo (3 + s.before.length) row := by
  rw [redraw, Sides.before_buffer, toNat_cursorColumn h]
  rfl

namespace Session

theorem step_of_edits {key : Key} (h : key.edits = true) (rows : Rows) (b : Buffer) :
    step rows b (.key key) = .continue (redraw rows.row (b.edit key)) rows (b.edit key) := by
  unfold step
  split
  case h_1 hinput => cases hinput
  case h_2 hinput | h_3 hinput | h_4 hinput =>
    cases hinput
    cases h
  case h_5 hinput =>
    cases hinput
    rfl

theorem line_of_startLine {reports : Reports} {before written : String} {rows : Rows}
    {line : Buffer} (h : startLine reports before = .continue written rows line) :
    line = .empty := by
  rw [startLine] at h
  split at h
  · cases h
    rfl
  · cases h

theorem line_of_enter {rows next : Rows} {b line : Buffer} {written : String}
    (h : step rows b (.key (.char '\n')) = .continue written next line) : line = .empty := by
  rw [step] at h
  split at h
  · exact line_of_startLine h
  · cases h

/-- **A line that is edited is drawn after each key.** -/
theorem runFrom_edits (rows : Rows) (b : Buffer) {keys : List Key}
    (h : ∀ key ∈ keys, key.edits = true) (rest : List Input) :
    runFrom rows b (keys.map .key ++ rest) =
      (runFrom rows (keys.foldl Buffer.edit b) rest).after
        ((keys.scanl Buffer.edit b).tail.map (redraw rows.row)) := by
  induction keys generalizing b with
  | nil => rfl
  | cons key keys ih =>
    obtain ⟨hkey, hkeys⟩ := List.forall_mem_cons.1 h
    have hscan : (b.edit key) :: (keys.scanl Buffer.edit (b.edit key)).tail =
        keys.scanl Buffer.edit (b.edit key) := by
      cases keys <;> simp [List.scanl_cons]
    rw [List.map_cons, List.cons_append, runFrom, step_of_edits hkey]
    simp only [Step.followedBy, ih (b.edit key) hkeys, List.foldl_cons, List.scanl_cons,
      List.tail_cons]
    rw [← hscan]
    rfl

/-- **A line that is submitted** is drawn after each key and then replied to.  The next line starts,
unless the reply ends the session. -/
theorem runFrom_line (rows : Rows) {keys : List Key} (h : ∀ key ∈ keys, key.edits = true)
    (rest : List Input) :
    runFrom rows .empty (keys.map .key ++ .key (.char '\n') :: rest) =
      (match reply (keys.foldl Buffer.edit .empty).text with
        | .text written => (startLine rows.later written).followedBy rest fun rows line =>
            runFrom rows line rest
        | .farewell written => ⟨[written], .closed, rest.length⟩).after
        ((keys.scanl Buffer.edit .empty).tail.map (redraw rows.row)) := by
  rw [runFrom_edits rows .empty h, runFrom, step]
  cases reply (keys.foldl Buffer.edit .empty).text <;> rfl

end Session

/-- **The edited line is a two-sided editor.**  From the empty line, with which every line begins,
the keys lead through the lines that have the sides the keys lead through, and each of them is drawn
in its turn, until a key comes that does not edit.  The cursor is where the sides meet, whatever the
characters are that have been typed.  No byte offset that is used for the drawing or for the next
key lies inside of a character or beyond the end of the text. -/
theorem Session.editing_refines (rows : Rows) {keys : List Key}
    (hkeys : ∀ key ∈ keys, key.edits = true) (rest : List Input) :
    let visited := keys.scanl Sides.edit .empty
    keys.scanl Buffer.edit .empty = visited.map Sides.buffer ∧
    runFrom rows .empty (keys.map .key ++ rest) =
      (runFrom rows (keys.foldl Sides.edit .empty).buffer rest).after
        (visited.tail.map fun s => redraw rows.row s.buffer) ∧
    (∀ s ∈ visited,
      s.buffer.text = s.before ++ s.after ∧
      s.buffer.cursor = s.before.length ∧ s.buffer.cursor ≤ s.buffer.text.length ∧
      (∀ key, ∀ offset ∈ s.buffer.offsets key, IsBoundary s.buffer.text offset) ∧
      (s.before.length ≤ 65532 →
        redraw rows.row s.buffer =
          goTo 1 rows.row ++ eraseRow ++ "> " ++ String.ofList (s.before ++ s.after) ++
            goTo (3 + s.before.length) rows.row)) ∧
    (∀ b written next line, step rows b (.key (.char '\n')) = .continue written next line →
      line = .empty) := by
  intro visited
  have hvisited : keys.scanl Buffer.edit .empty = visited.map Sides.buffer :=
    Sides.scanl_edit_buffer .empty keys
  have hlast : keys.foldl Buffer.edit .empty = (keys.foldl Sides.edit .empty).buffer :=
    Sides.foldl_edit_buffer .empty keys
  refine ⟨hvisited, ?_, ?_, fun b written next line => line_of_enter⟩
  · have hrun := runFrom_edits rows .empty hkeys rest
    rwa [hlast, hvisited, ← List.map_tail, List.map_map] at hrun
  · intro s _
    refine ⟨rfl, rfl, ?_, fun key offset => Buffer.isBoundary_of_mem, redraw_buffer rows.row⟩
    simp [Sides.buffer]

/-- A sign of two bytes is typed and the digit before it is typed over. -/
theorem Session.editing_refines_times :
    let later : Reports := fun _ => .ok 8
    let keys : List Key := [.char '1', .char '×', .left, .backspace, .char '2']
    let visited : List Sides :=
      [⟨['1'], []⟩, ⟨['1', '×'], []⟩, ⟨['1'], ['×']⟩, ⟨[], ['×']⟩, ⟨['2'], ['×']⟩]
    (∀ key ∈ keys, key.edits = true) ∧
    runFrom ⟨7, later⟩ .empty (keys.map .key) =
      ⟨visited.map (fun s => redraw 7 s.buffer) ++ ["\r\n"], .closed, 0⟩ ∧
    (∀ offset ∈ (Sides.buffer ⟨['2'], ['×']⟩).offsets .delete, IsBoundary ['2', '×'] offset) := by
  intro later keys visited
  have hkeys : ∀ key ∈ keys, key.edits = true := by decide
  obtain ⟨-, hrun, hstates, -⟩ := editing_refines ⟨7, later⟩ hkeys []
  refine ⟨hkeys, ?_, ?_⟩
  · rwa [List.append_nil] at hrun
  · obtain ⟨-, -, -, hoffsets, -⟩ := hstates ⟨['2'], ['×']⟩ (by decide)
    exact hoffsets .delete

end Line

end Calculator
