import Calculator.Terminal.Paragraph
import Mathlib.Algebra.Order.BigOperators.Group.List
import Mathlib.Algebra.Order.Ring.Nat

/-!
# What wrapping keeps

Wrapping breaks a line into rows by dropping glyphs at the breaks.  It never moves, repeats or makes
up a glyph: the rows, read one after the other, are the line without some of its glyphs
(`wrap_sublist`).  The invariant is that this holds of everything `Wrapping` has at hand, in the
order in which it would be given out.  A word is given out after the blanks, so that the order is
right only if no word has been begun when a blank is taken in (`Wrapping.InOrder`).

A glyph breaks a row at most once, so that there are not many more rows than glyphs
(`length_wrap_le`).
-/

namespace Calculator.Terminal

open Glyph

variable {columns : Nat} {g : Glyph} {line : List Glyph} {w w' : Wrapping}

namespace Wrapping

/-! ## The glyphs at hand -/

/-- **The glyphs at hand**, in the order in which they would be given out. -/
def held (w : Wrapping) : List Glyph := w.rows.reverse.flatten ++ w.row ++ w.blanks ++ w.word

/-- **No word has been begun** unless the last glyph belongs to it. -/
def InOrder (w : Wrapping) : Prop := w.inWord = false → w.word = []

theorem joinWord_sublist (w : Wrapping) : w.joinWord.held.Sublist w.held := by
  cases hrow : w.row.isEmpty with
  | true =>
    have hjoined : w.joinWord.held = w.rows.reverse.flatten ++ w.word := by
      simp [held, joinWord, hrow]
    rw [hjoined, held]
    have hbehind : w.rows.reverse.flatten.Sublist (w.rows.reverse.flatten ++ w.row ++ w.blanks) :=
      (List.sublist_append_left _ w.row).trans (List.sublist_append_left _ w.blanks)
    exact hbehind.append_right w.word
  | false =>
    have hjoined : w.joinWord.held = w.held := by
      simp [held, joinWord, hrow]
    exact hjoined ▸ .refl _

theorem held_emitRow (w : Wrapping) : w.emitRow.held = w.held := by
  simp [held, emitRow]

theorem dropBlanks_sublist (room : Nat) (blanks : List Glyph) :
    (dropBlanks room blanks).1.Sublist blanks := by
  induction blanks generalizing room with
  | nil => exact .refl []
  | cons g rest ih =>
    rw [dropBlanks]
    split
    · exact List.sublist_cons_self g rest
    · exact (ih _).cons g

/-! ## One step -/

/-- The word has joined the row if the glyph ends it. -/
def joined (columns : Nat) (w : Wrapping) (g : Glyph) : Wrapping :=
  if w.endsWord columns g then w.joinWord else w

/-- The row has been given out, and the blanks that filled it are dropped. -/
def broken (columns : Nat) (w : Wrapping) : Wrapping :=
  { w.emitRow with blanks := (dropBlanks (columns - totalWidth w.row) w.blanks).1 }

/-- Whether the blanks behind the row ran out before the row was full. -/
def ranOut (columns : Nat) (w : Wrapping) : Bool :=
  (dropBlanks (columns - totalWidth w.row) w.blanks).2

theorem step_eq (columns : Nat) (w : Wrapping) (g : Glyph) :
    w.step columns g =
      if columns < g.width then w
      else if (w.joined columns g).isFull columns g then
        if g.isBlank && (w.joined columns g).ranOut columns then (w.joined columns g).broken columns
        else ((w.joined columns g).broken columns).take g
      else (w.joined columns g).take g := rfl

/-- **What a step can do**: it passes over a glyph that is too wide, or it takes the glyph in,
behind the row or behind a break, or it drops a blank at the break. -/
theorem step_cases (columns : Nat) (w : Wrapping) (g : Glyph) :
    w.step columns g = w ∨
    w.step columns g = (w.joined columns g).take g ∨
    w.step columns g = ((w.joined columns g).broken columns).take g ∨
    g.isBlank = true ∧ w.step columns g = (w.joined columns g).broken columns := by
  rw [step_eq]
  split
  case isTrue => exact .inl rfl
  case isFalse =>
    split
    case isTrue =>
      split
      case isTrue hlost => exact .inr (.inr (.inr ⟨(Bool.and_eq_true_iff.1 hlost).1, rfl⟩))
      case isFalse => exact .inr (.inr (.inl rfl))
    case isFalse => exact .inr (.inl rfl)

theorem joined_sublist (columns : Nat) (w : Wrapping) (g : Glyph) :
    (w.joined columns g).held.Sublist w.held := by
  rw [joined]
  split
  · exact w.joinWord_sublist
  · exact .refl _

theorem rows_joined (columns : Nat) (w : Wrapping) (g : Glyph) :
    (w.joined columns g).rows = w.rows := by
  rw [joined]
  split <;> rfl

/-- A blank ends the word before it. -/
theorem word_joined (h : w.InOrder) (hblank : g.isBlank = true) :
    (w.joined columns g).word = [] := by
  cases hword : w.inWord with
  | true =>
    have hends : w.endsWord columns g = true := by simp [endsWord, hword, hblank]
    rw [joined, if_pos hends]
    rfl
  | false =>
    rw [joined]
    split
    · rfl
    · exact h hword

theorem broken_sublist (columns : Nat) (w : Wrapping) : (w.broken columns).held.Sublist w.held := by
  have hdropped := dropBlanks_sublist (columns - totalWidth w.row) w.blanks
  rw [← w.held_emitRow]
  exact (hdropped.append_left (w.emitRow.rows.reverse.flatten ++ w.emitRow.row)).append_right w.word

/-- A blank is taken in where there is no word. -/
theorem held_take (hword : g.isBlank = true → w.word = []) : (w.take g).held = w.held ++ [g] := by
  cases hblank : g.isBlank with
  | true => simp [held, take, hblank, hword hblank]
  | false => simp [held, take, hblank]

theorem inOrder_take (hword : g.isBlank = true → w.word = []) : (w.take g).InOrder := by
  cases hblank : g.isBlank with
  | true => simp [InOrder, take, hblank, hword hblank]
  | false => simp [InOrder, take, hblank]

theorem rows_take (w : Wrapping) (g : Glyph) : (w.take g).rows = w.rows := by
  rw [take]
  split <;> rfl

/-- **What a step may do**: it keeps the order, it takes in no other glyph than its own, and it
gives out at most one row. -/
structure Grows (g : Glyph) (w w' : Wrapping) : Prop where
  inOrder : w'.InOrder
  held : w'.held.Sublist (w.held ++ [g])
  rows : w'.rows.length ≤ w.rows.length + 1

theorem Grows.of_take (hword : g.isBlank = true → w'.word = []) (hheld : w'.held.Sublist w.held)
    (hrows : w'.rows.length ≤ w.rows.length + 1) : Grows g w (w'.take g) where
  inOrder := inOrder_take hword
  held := by
    rw [held_take hword]
    exact hheld.append_right [g]
  rows := by rwa [rows_take]

/-- **Every step** does no more than it may. -/
theorem grows_step (h : w.InOrder) (columns : Nat) (g : Glyph) : Grows g w (w.step columns g) := by
  have hword : g.isBlank = true → (w.joined columns g).word = [] := word_joined h
  have hrows : (w.joined columns g).rows.length ≤ w.rows.length :=
    Nat.le_of_eq (congrArg List.length (w.rows_joined columns g))
  have hjoined := w.joined_sublist columns g
  have hbroken := (broken_sublist columns _).trans hjoined
  rcases w.step_cases columns g with hstep | hstep | hstep | ⟨hblank, hstep⟩ <;> rw [hstep]
  · exact ⟨h, List.sublist_append_left _ _, Nat.le_succ _⟩
  · exact .of_take hword hjoined (Nat.le_succ_of_le hrows)
  · exact .of_take hword hbroken (Nat.succ_le_succ hrows)
  · exact ⟨fun _ => hword hblank, hbroken.trans (List.sublist_append_left _ _),
      Nat.succ_le_succ hrows⟩

/-! ## Whole lines -/

/-- **Steps over a line** take in no other glyphs than its own, in their order. -/
theorem foldl_step (h : w.InOrder) (columns : Nat) (line : List Glyph) :
    (line.foldl (step columns) w).held.Sublist (w.held ++ line) ∧
      (line.foldl (step columns) w).rows.length ≤ w.rows.length + line.length := by
  induction line generalizing w with
  | nil => simp
  | cons g rest ih =>
    have hstep := grows_step h columns g
    obtain ⟨hheld, hrows⟩ := ih hstep.inOrder
    have hone := hstep.rows
    refine ⟨hheld.trans ?_, ?_⟩
    · have hrest := hstep.held.append_right rest
      rwa [List.append_assoc] at hrest
    · rw [List.foldl_cons, List.length_cons]
      omega

/-- The word, or blanks that fill a row of their own, have joined the rows at the end. -/
def closed (w : Wrapping) : Wrapping :=
  if w.word.isEmpty && w.blanks.isEmpty then w
  else (if w.row.isEmpty && w.word.isEmpty then w.emitRow else w).joinWord

theorem closed_sublist (w : Wrapping) : w.closed.held.Sublist w.held := by
  rw [closed]
  split
  · exact .refl _
  · split
    · rw [← w.held_emitRow]
      exact joinWord_sublist _
    · exact joinWord_sublist _

theorem length_rows_closed (w : Wrapping) : w.closed.rows.length ≤ w.rows.length + 1 := by
  rw [closed]
  split
  · exact Nat.le_succ _
  · split
    · exact Nat.le_refl _
    · exact Nat.le_succ _

/-- The last row has been given out, if there is one. -/
def emptied (w : Wrapping) : Wrapping := if w.row.isEmpty then w else w.emitRow

theorem held_emptied (w : Wrapping) : w.emptied.held = w.held := by
  rw [emptied]
  split
  · rfl
  · exact w.held_emitRow

theorem length_rows_emptied (w : Wrapping) : w.emptied.rows.length ≤ w.rows.length + 1 := by
  rw [emptied]
  split
  · exact Nat.le_succ _
  · exact Nat.le_refl _

theorem finish_eq (w : Wrapping) :
    w.finish =
      if w.closed.emptied.rows.isEmpty then [[]] else w.closed.emptied.rows.reverse := rfl

theorem finish_sublist (w : Wrapping) : w.finish.flatten.Sublist w.held := by
  have hheld : w.closed.emptied.held.Sublist w.held := by
    rw [held_emptied]
    exact w.closed_sublist
  rw [finish_eq]
  split
  · exact List.nil_sublist _
  · refine List.Sublist.trans ?_ hheld
    rw [held, List.append_assoc, List.append_assoc]
    exact List.sublist_append_left _ _

/-- What is left at the end fills at most two rows more. -/
theorem length_finish_le (w : Wrapping) : w.finish.length ≤ w.rows.length + 2 := by
  have hclosed := w.length_rows_closed
  have hemptied := w.closed.length_rows_emptied
  rw [finish_eq]
  split
  · exact Nat.le_add_left 1 _
  · rw [List.length_reverse]
    omega

theorem finish_ne_nil (w : Wrapping) : w.finish ≠ [] := by
  rw [finish_eq]
  split
  case isTrue => exact List.cons_ne_nil _ _
  case isFalse hsome => simpa using hsome

end Wrapping

/-- **The rows of a line are the line**, without some of its glyphs. -/
theorem wrap_sublist (columns : Nat) (line : List Glyph) :
    (wrap columns line).flatten.Sublist line := by
  have hstart : ({} : Wrapping).InOrder := fun _ => rfl
  exact (Wrapping.finish_sublist _).trans (Wrapping.foldl_step hstart columns line).1

/-- **There are not many more rows than glyphs.** -/
theorem length_wrap_le (columns : Nat) (line : List Glyph) :
    (wrap columns line).length ≤ line.length + 2 := by
  have hstart : ({} : Wrapping).InOrder := fun _ => rfl
  have hrows := (Wrapping.foldl_step hstart columns line).2
  have hfinish := (line.foldl (Wrapping.step columns) {}).length_finish_le
  rw [wrap]
  exact Nat.le_trans hfinish (Nat.add_le_add_right (by simpa using hrows) 2)

/-! ## Texts of several lines -/

/-- **Each glyph of a broken text** is a glyph of one of its lines. -/
theorem mem_of_mem_wrapLines {lines : List TextLine} {row : List Glyph}
    (hrow : row ∈ wrapLines columns lines) (hg : g ∈ row) : ∃ line ∈ lines, g ∈ line.glyphs := by
  obtain ⟨line, hline, hwrapped⟩ := List.mem_flatMap.1 hrow
  exact ⟨line, hline, (wrap_sublist columns _).subset (List.mem_flatten_of_mem hwrapped hg)⟩

theorem length_symbolsOf_le (text : List Char) : (symbolsOf text).length ≤ text.length := by
  induction text with
  | nil => exact Nat.le_refl 0
  | cons c rest ih =>
    rw [symbolsOf, List.length_cons]
    split
    next mark marks more h =>
      rw [h, List.length_cons] at ih
      split <;> simp only [List.length_cons] <;> omega
    next => exact Nat.succ_le_succ ih

theorem length_glyphs_le (line : TextLine) :
    line.glyphs.length ≤ (line.map fun span => span.text.length).sum := by
  rw [TextLine.glyphs, List.length_flatMap]
  refine List.sum_le_sum fun span _ => ?_
  rw [Span.glyphs, List.length_map]
  exact Nat.le_trans (List.length_filter_le _ _) (length_symbolsOf_le span.text)

theorem wrapLines_ne_nil {lines : List TextLine} (h : lines ≠ []) (columns : Nat) :
    wrapLines columns lines ≠ [] := by
  obtain ⟨line, rest, rfl⟩ := List.exists_cons_of_ne_nil h
  rw [wrapLines, List.flatMap_cons]
  exact List.append_ne_nil_of_left_ne_nil (Wrapping.finish_ne_nil _) _

/-- **The rows of a text** are bounded by its characters, whatever the width. -/
theorem length_wrapLines_le (columns : Nat) (lines : List TextLine) :
    (wrapLines columns lines).length ≤
      (lines.map fun line => (line.map fun span => span.text.length).sum + 2).sum := by
  rw [wrapLines, List.length_flatMap]
  refine List.sum_le_sum fun line _ => ?_
  exact Nat.le_trans (length_wrap_le columns line.glyphs)
    (Nat.add_le_add_right (length_glyphs_le line) 2)

end Calculator.Terminal
