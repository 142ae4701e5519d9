import Calculator.Text.Tail

/-!
# The longest end that fits

A text that is too long is shown from its end, and as much of it is shown as there is room for.
`LongestEnd` says so without the scan that finds it: of all ends of the text that fit it is the
longest.  Ends of one text are ends of each other, so there is only one such end.

A character of two columns may leave a column empty, and one that takes no column is still kept when
the room is used up.  Cutting a second time, to less room, comes to the same as cutting once: the
ellipsis of the first cut is then a character like any other, and the first to go.

The room is compared with the width of the whole text, the cut is made by the width of single
characters.  `AddsUp` is the condition under which this is one measure.
-/

namespace Calculator.Text

variable {text kept : List Char} {room less : Nat}

/-! ## Widths that add up -/

/-- **The width of a text is the sum of the widths of its characters**, however much is cut off in
front, and with an ellipsis there. -/
def AddsUp (text : List Char) : Prop :=
  ∀ rest, rest <:+ text →
    width rest = columns rest ∧ width ('…' :: rest) = columns ('…' :: rest)

theorem AddsUp.width_eq (h : AddsUp text) : width text = columns text :=
  (h text List.suffix_rfl).1

theorem isSolitary_ellipsis : isSolitary '…' = true := by decide +kernel

theorem addsUp_of_isSolitary (h : ∀ c ∈ text, isSolitary c = true) : AddsUp text := by
  intro rest hrest
  have hsolitary : ∀ c ∈ rest, isSolitary c = true := fun c hc => h c (hrest.mem hc)
  exact ⟨width_eq_columns hsolitary,
    width_eq_columns (List.forall_mem_cons.2 ⟨isSolitary_ellipsis, hsolitary⟩)⟩

/-! ## Ends -/

/-- **The longest end of a text that fits** into some columns. -/
structure LongestEnd (room : Nat) (text kept : List Char) : Prop where
  isSuffix : kept <:+ text
  fits : columns kept ≤ room
  longest : ∀ other, other <:+ text → columns other ≤ room → other <:+ kept

namespace LongestEnd

theorem unique {other : List Char} (h : LongestEnd room text kept)
    (hother : LongestEnd room text other) : kept = other :=
  (hother.longest kept h.isSuffix h.fits).eq_of_length_le
    (h.longest other hother.isSuffix hother.fits).length_le

/-- An end that fits into less room is the longest one there, too. -/
theorem of_fits (h : LongestEnd room text kept) (hless : less ≤ room)
    (hfits : columns kept ≤ less) : LongestEnd less text kept where
  isSuffix := h.isSuffix
  fits := hfits
  longest := fun other hother hcolumns => h.longest other hother (Nat.le_trans hcolumns hless)

/-- **An end that had to be cut can be cut again**, the ellipsis first. -/
theorem of_cut {shorter : List Char} (h : LongestEnd room text kept)
    (hshorter : LongestEnd less text shorter) (hless : less ≤ room)
    (hcut : less < columns ('…' :: kept)) : LongestEnd less ('…' :: kept) shorter where
  isSuffix :=
    (h.longest shorter hshorter.isSuffix (Nat.le_trans hshorter.fits hless)).trans
      (List.suffix_cons _ _)
  fits := hshorter.fits
  longest := by
    intro other hother hcolumns
    rcases List.suffix_cons_iff.1 hother with rfl | hinside
    · exact absurd hcolumns (Nat.not_le.2 hcut)
    · exact hshorter.longest other (hinside.trans h.isSuffix) hcolumns

end LongestEnd

/-! ## The scan -/

theorem fit_isPrefix (room : Nat) (text : List Char) : fit room text <+: text := by
  induction text generalizing room with
  | nil => exact List.prefix_rfl
  | cons c rest ih =>
    rw [fit]
    split
    · exact List.cons_prefix_cons.2 ⟨rfl, ih _⟩
    · exact List.nil_prefix

/-- **The scan stops only where nothing more fits.** -/
theorem isPrefix_fit {front : List Char} (h : front <+: text) (hfits : columns front ≤ room) :
    front <+: fit room text := by
  induction text generalizing front room with
  | nil => exact h
  | cons c rest ih =>
    rcases List.prefix_cons_iff.1 h with rfl | ⟨front, rfl, hfront⟩
    · exact List.nil_prefix
    · rw [columns_cons] at hfits
      rw [fit, if_pos (by omega)]
      exact List.cons_prefix_cons.2 ⟨rfl, ih hfront (by omega)⟩

/-- **What is kept of the end is the longest that fits.** -/
theorem longestEnd_fit (room : Nat) (text : List Char) :
    LongestEnd room text (fit room text.reverse).reverse where
  isSuffix := by
    rw [← List.reverse_prefix, List.reverse_reverse]
    exact fit_isPrefix room text.reverse
  fits := by
    rw [columns_reverse]
    exact columns_fit_le room text.reverse
  longest := by
    intro other hother hcolumns
    rw [← List.reverse_prefix] at hother ⊢
    rw [List.reverse_reverse]
    exact isPrefix_fit hother (by rwa [columns_reverse])

theorem tail_of_le (h : width text ≤ room) : tail text room = text := if_pos h

theorem tail_zero (h : 0 < width text) : tail text 0 = [] := by
  rw [tail, if_neg (Nat.not_le.2 h), if_pos rfl]

theorem exists_tail (h : room < width text) (hroom : 0 < room) :
    ∃ kept, tail text room = '…' :: kept ∧ LongestEnd (room - 1) text kept := by
  refine ⟨_, ?_, longestEnd_fit (room - 1) text⟩
  rw [tail, if_neg (Nat.not_le.2 h), if_neg (Nat.ne_of_gt hroom)]

/-- **Cutting twice is cutting once.** -/
theorem tail_tail (h : AddsUp text) (hless : less ≤ room) :
    tail (tail text room) less = tail text less := by
  rcases Nat.lt_or_ge room (width text) with hcut | hwhole
  · have hcutless : less < width text := Nat.lt_of_le_of_lt hless hcut
    rcases Nat.eq_zero_or_pos room with rfl | hroom
    · rw [Nat.le_zero.1 hless, tail_zero hcut]
      rfl
    · obtain ⟨kept, htail, hkept⟩ := exists_tail hcut hroom
      have hwidth : width ('…' :: kept) = columns ('…' :: kept) := (h kept hkept.isSuffix).2
      have hcolumns : columns ('…' :: kept) = 1 + columns kept := by
        rw [columns_cons, charWidth_ellipsis]
      rw [htail]
      rcases Nat.eq_zero_or_pos less with rfl | hpos
      · rw [tail_zero hcutless, tail_zero (by omega)]
      · obtain ⟨shorter, hshort, hshorter⟩ := exists_tail hcutless hpos
        rw [hshort]
        rcases Nat.lt_or_ge less (width ('…' :: kept)) with hagain | hfits
        · -- the end that is kept first has to be cut again
          obtain ⟨rest, hrest, hlongest⟩ := exists_tail hagain hpos
          have hsame := hkept.of_cut hshorter (by omega) (by omega)
          rw [hrest, hlongest.unique hsame]
        · -- the end that is kept first is short enough
          have hsame : LongestEnd (less - 1) text kept := hkept.of_fits (by omega) (by omega)
          rw [tail_of_le hfits, hsame.unique hshorter]
  · rw [tail_of_le hwhole]

/-- **The end of a text that is shown.**  A text whose width adds up is shown whole if it fits, and
else as an ellipsis and the longest end for which there is room besides; where there is no room at
all nothing is shown.  What is shown is never too wide, and shown again in less room it is what the
text itself would be there. -/
theorem tail_keeps_longest_end (h : AddsUp text) (room : Nat) :
    (columns text ≤ room → tail text room = text) ∧
    (room < columns text → room = 0 → tail text room = []) ∧
    (room < columns text → 0 < room →
      ∃ kept, tail text room = '…' :: kept ∧ LongestEnd (room - 1) text kept) ∧
    width (tail text room) = columns (tail text room) ∧ columns (tail text room) ≤ room ∧
    ∀ less ≤ room, tail (tail text room) less = tail text less := by
  have hwidth := h.width_eq
  have hcut : room < columns text → 0 < room →
      ∃ kept, tail text room = '…' :: kept ∧ LongestEnd (room - 1) text kept :=
    fun hlt => exists_tail (by omega)
  have hzero : room < columns text → room = 0 → tail text room = [] := by
    rintro hlt rfl
    exact tail_zero (by omega)
  have hshown : width (tail text room) = columns (tail text room) ∧
      columns (tail text room) ≤ room := by
    rcases Nat.lt_or_ge room (columns text) with hlt | hle
    · refine ⟨?_, columns_tail_le (by omega)⟩
      rcases Nat.eq_zero_or_pos room with hroom | hroom
      · rw [hzero hlt hroom]
        rfl
      · obtain ⟨kept, htail, hkept⟩ := hcut hlt hroom
        rw [htail]
        exact (h kept hkept.isSuffix).2
    · rw [tail_of_le (by omega)]
      exact ⟨hwidth, hle⟩
  exact ⟨fun hle => tail_of_le (by omega), hzero, hcut, hshown.1, hshown.2,
    fun less => tail_tail h⟩

/-- In six columns a mark without a column is kept, and one column stays empty because the character
before it takes two. -/
theorem tail_keeps_longest_end_wide :
    let text := "1漢\u0301+字2".toList
    AddsUp text ∧ columns text = 7 ∧
      (∃ kept, tail text 6 = '…' :: kept ∧ LongestEnd 5 text kept) ∧
      tail text 6 = "…\u0301+字2".toList ∧ columns (tail text 6) ≤ 6 ∧
      tail (tail text 6) 3 = tail text 3 ∧ tail text 3 = "…2".toList := by
  intro text
  have hsolitary : text.all isSolitary = true := by decide +kernel
  have hadds : AddsUp text := addsUp_of_isSolitary (List.all_eq_true.1 hsolitary)
  have hcolumns : columns text = 7 := by decide +kernel
  obtain ⟨-, -, hkept, -, hfits, hagain⟩ := tail_keeps_longest_end hadds 6
  exact ⟨hadds, hcolumns, hkept (by omega) (by omega), by decide +kernel, hfits,
    hagain 3 (by omega), by decide +kernel⟩

end Calculator.Text
