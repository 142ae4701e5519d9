import Calculator.Proofs.Line.Editing
import Calculator.Proofs.SingleColumn

/-!
# Where the terminal's cursor is put

After each key that leaves the session running the line is drawn, and the last thing that is written
is the column of the terminal's cursor.  It is the count of the characters before the cursor of the
line, behind the two columns of the prompt, in 16 bits (`Session.column_of_cursor`).

The text before the cursor takes as many columns as it has characters if each of them takes one.
There, and as long as the count stays within 16 bits, the terminal's cursor stands right behind that
text.  A character of two columns before it leaves it one column short.
-/

namespace Calculator.Line

open Text

/-! ## The lines of a session -/

/-- **The line after some inputs** and the row it is typed in, if the session goes on behind
them. -/
def Session.lineAfter (rows : Rows) (b : Buffer) : List Input → Option (Nat × Buffer)
  | [] => some (rows.row, b)
  | input :: rest =>
    match step rows b input with
    | .continue _ next line => lineAfter next line rest
    | .stop _ _ => none

/-- The column that is sent for a line. -/
def Buffer.column (b : Buffer) : Nat := (cursorColumn b.before.length).toNat

/-- **What is written ends with the drawing of a line**, and that with its column. -/
def Draws (row : Nat) (b : Buffer) (written : String) : Prop :=
  ∃ front, written = front ++ String.ofList b.text ++ goTo b.column row

theorem draws_redraw (row : Nat) (b : Buffer) (front : String) :
    Draws row b (front ++ redraw row b) :=
  ⟨front ++ goTo 1 row ++ eraseRow ++ "> ", by simp [redraw, Buffer.column, String.append_assoc]⟩

theorem draws_prompt (row : Nat) (front : String) : Draws row .empty (front ++ prompt row) := by
  rw [prompt, ← String.append_assoc]
  exact draws_redraw row .empty _

/-- A line with its cursor inside. -/
def Buffer.IsInside (b : Buffer) : Prop := ∃ s : Sides, b = s.buffer

theorem Buffer.IsInside.length_before {b : Buffer} (h : b.IsInside) :
    b.before.length = b.cursor := by
  obtain ⟨s, rfl⟩ := h
  rw [Sides.before_buffer]
  rfl

namespace Session

variable {rows next : Rows} {b line last : Buffer} {input : Input} {inputs : List Input}
  {row : Nat} {reports : Reports} {before written : String}

theorem draws_of_startLine (h : startLine reports before = .continue written next line) :
    Draws next.row line written ∧ line.IsInside := by
  rw [startLine] at h
  split at h
  · cases h
    exact ⟨draws_prompt _ before, .empty, rfl⟩
  · cases h

/-- **A step that goes on draws the next line**, which has its cursor inside again. -/
theorem draws_of_step (hinside : b.IsInside) (h : step rows b input = .continue written next line) :
    Draws next.row line written ∧ line.IsInside := by
  unfold step at h
  split at h
  case h_1 | h_3 | h_4 => cases h
  case h_2 =>
    split at h
    case h_1 => exact draws_of_startLine h
    case h_2 => cases h
  case h_5 key _ _ _ =>
    cases h
    obtain ⟨s, rfl⟩ := hinside
    refine ⟨?_, s.edit key, s.edit_buffer key⟩
    simpa using draws_redraw rows.row (s.buffer.edit key) ""

/-- **What is written last draws the line.** -/
theorem draws_of_lineAfter (hinside : b.IsInside) (hwritten : Draws rows.row b written)
    (h : lineAfter rows b inputs = some (row, last)) :
    last.IsInside ∧ ∃ shown,
      (written :: (runFrom rows b inputs).output)[inputs.length]? = some shown ∧
        Draws row last shown := by
  induction inputs generalizing rows b written with
  | nil =>
    cases h
    exact ⟨hinside, written, rfl, hwritten⟩
  | cons input rest ih =>
    rw [lineAfter] at h
    split at h
    case h_1 between next line hstep =>
      obtain ⟨hdraws, hline⟩ := draws_of_step hinside hstep
      obtain ⟨hlast, shown, hshown, hlastdraws⟩ := ih hline hdraws h
      refine ⟨hlast, shown, ?_, hlastdraws⟩
      rw [runFrom, hstep, List.length_cons, List.getElem?_cons_succ]
      exact hshown
    case h_2 => cases h

/-- **The column of the cursor.**  Whatever has been put in, if the session goes on then the last
thing that is written is the column of the cursor: three more than the characters before it, in
16 bits.  As long as it stays within 16 bits, it is right behind the text before the cursor exactly
if this text takes as many columns as it has characters; so it is if each of them takes one, as
those of ASCII do. -/
theorem column_of_cursor {reports : Reports} {rows : Rows} (hfirst : reports.next = .ok rows)
    {inputs : List Input} {row : Nat} {b : Buffer}
    (h : lineAfter rows .empty inputs = some (row, b)) :
    (∃ shown, (run reports inputs).output[inputs.length]? = some shown ∧ Draws row b shown) ∧
    b.before.length = b.cursor ∧ b.column = (3 + b.cursor) % 0x10000 ∧
    (b.cursor ≤ 65532 → (b.column = 3 + width b.before ↔ width b.before = b.cursor)) ∧
    ((∀ c ∈ b.before, IsSingle c) → width b.before = b.cursor) ∧
    ((∀ c ∈ b.before, c.toNat < 128 ∧ c ≠ '\n') → ∀ c ∈ b.before, IsSingle c) := by
  have hstart : Buffer.empty.IsInside := ⟨.empty, rfl⟩
  have hstarted : startLine reports banner = .continue (banner ++ prompt rows.row) rows .empty := by
    rw [startLine, hfirst]
  obtain ⟨hinside, hshown⟩ := draws_of_lineAfter hstart (draws_prompt rows.row banner) h
  have hlength : b.before.length = b.cursor := hinside.length_before
  have hcolumn : b.column = (3 + b.cursor) % 0x10000 := by
    rw [Buffer.column, hlength]
    simp [cursorColumn]
  rw [run, hstarted]
  refine ⟨hshown, hlength, hcolumn, fun hshort => ?_, fun hsingle => ?_, fun hascii c hc => ?_⟩
  · rw [hcolumn]
    omega
  · rw [width_of_single hsingle, hlength]
  · exact isSingle_of_toNat_lt (hascii c hc).1 (hascii c hc).2

/-- Between the two characters of the second line, in row nine, the column is right, since the first
one takes one column, though the second one takes two. -/
theorem column_of_cursor_before_wide :
    let reports : Reports := fun n => .ok (n + 8)
    let inputs : List Input :=
      [.key (.char '\n'), .key (.char '×'), .key (.char '漢'), .key .left]
    let b : Buffer := ⟨['×', '漢'], 1⟩
    ∃ rows, reports.next = .ok rows ∧ lineAfter rows .empty inputs = some (9, b) ∧
      (∃ shown, (run reports inputs).output[4]? = some shown ∧ Draws 9 b shown) ∧
      b.column = 3 + width b.before := by
  intro reports inputs b
  have hfirst : reports.next = .ok ⟨8, fun n => reports (n + 1)⟩ := rfl
  have hafter : lineAfter ⟨8, fun n => reports (n + 1)⟩ .empty inputs = some (9, b) := by decide
  obtain ⟨hshown, -, -, hright, hsingle, -⟩ := column_of_cursor hfirst hafter
  have htimes : ∀ c ∈ b.before, IsSingle c := by
    refine List.forall_mem_singleton.2 ⟨?_, ?_⟩ <;> decide +kernel
  exact ⟨_, hfirst, hafter, hshown, (hright (by decide)).2 (hsingle htimes)⟩

/-- **Behind a character of two columns the terminal's cursor is one column short.** -/
theorem not_column_behind_text :
    ¬ ∀ (reports : Reports) rows inputs row b, reports.next = .ok rows →
      lineAfter rows .empty inputs = some (row, b) →
      ∃ shown front, (run reports inputs).output[inputs.length]? = some shown ∧
        shown = front ++ goTo (3 + width b.before) row := by
  intro h
  let reports : Reports := fun _ => .ok 1
  obtain ⟨shown, front, hshown, hfront⟩ :=
    h reports ⟨1, reports⟩ [.key (.char '漢')] 1 ⟨['漢'], 1⟩ rfl (by decide)
  have hwidth : width (Buffer.before ⟨['漢'], 1⟩) = 2 := by decide +kernel
  have hwritten : (run reports [.key (.char '漢')]).output[1]? = some (redraw 1 ⟨['漢'], 1⟩) := by
    decide
  have hsame : redraw 1 ⟨['漢'], 1⟩ = front ++ goTo 5 1 := by
    rw [hwidth] at hfront
    rw [← hfront]
    exact Option.some.inj (hwritten.symm.trans hshown)
  -- the last digit of the column
  have hsent : (redraw 1 ⟨['漢'], 1⟩).toList.reverse[1]? = some '4' := by decide
  have hright : (front ++ goTo 5 1).toList.reverse[1]? = some '5' := by
    have hend : (goTo 5 1).toList.reverse = ['H', '5', ';', '1', '[', '\x1b'] := by decide
    rw [String.toList_append, List.reverse_append, hend]
    rfl
  rw [hsame, hright] at hsent
  exact absurd hsent (by decide)

end Session

end Calculator.Line
