import Calculator.Terminal.Paragraph

/-!
# What drawing does to a cell

A drawing is followed one cell at a time.  `Screen.Alters x y f before after` says that a drawing
leaves the size of the screen as it is and changes the cell in column `x` and row `y` by `f`;
`Screen.Keeps` is the case in which this cell stays as it was.  Drawings made one after the other
compose (`Screen.Alters.andThen`), and of a loop over the columns or rows of an area only one turn
counts for the cell (`Screen.alters_range`).  So each way of drawing needs two facts: which cell it
alters and how, and which cells it keeps.

Nothing is said of cells off the screen, so that no step has to ask whether it draws on the screen;
whoever reads a cell at the end asks it once.
-/

namespace Calculator.Terminal

/-- **A glyph written over a cell**, which stays as it was where there is none. -/
def Cell.overwritten (cell : Cell) : Option Glyph → Cell
  | some g => ⟨g.symbol, cell.look.with g.style⟩
  | none => cell

/-- A style applied to a cell. -/
def Cell.painted (style : Style) (cell : Cell) : Cell :=
  { cell with look := cell.look.with style }

/-- The glyph of a column in a row of a paragraph. -/
def glyphAt? (rows : List (List Glyph)) (column row : Nat) : Option Glyph :=
  rows[row]?.bind fun glyphs => glyphs[column]?

theorem glyphAt?_of_length_le {rows : List (List Glyph)} {row : Nat} (h : rows.length ≤ row)
    (column : Nat) : glyphAt? rows column row = none := by
  rw [glyphAt?, List.getElem?_eq_none h]
  rfl

theorem glyphAt?_drop (rows : List (List Glyph)) (n column row : Nat) :
    glyphAt? (rows.drop n) column row = glyphAt? rows column (n + row) := by
  rw [glyphAt?, glyphAt?, List.getElem?_drop]

namespace Area

variable {a : Area} {i j : Nat}

theorem inside_x (hi : i < a.inside.width) : a.inside.x = a.x + 1 := by
  simp only [inside, right] at hi ⊢
  omega

theorem inside_y (hj : j < a.inside.height) : a.inside.y = a.y + 1 := by
  simp only [inside, bottom] at hj ⊢
  omega

theorem inside_lt_right (hi : i < a.inside.width) : a.inside.x + i + 1 < a.right := by
  rw [inside_x hi, right]
  simp only [inside] at hi
  omega

theorem inside_lt_bottom (hj : j < a.inside.height) : a.inside.y + j + 1 < a.bottom := by
  rw [inside_y hj, bottom]
  simp only [inside] at hj
  omega

end Area

theorem Border.at?_eq_none {border : Border} {a : Area} {x y : Nat} (hleft : x ≠ a.x)
    (htop : y ≠ a.y) (hright : x + 1 ≠ a.right) (hbottom : y + 1 ≠ a.bottom) :
    border.at? a x y = none := by
  rw [← beq_eq_false_iff_ne] at hleft htop hright hbottom
  simp only [Border.at?, hleft, htop, hright, hbottom]
  rfl

namespace Screen

variable {s s' s'' : Screen} {x y i j : Nat} {f g : Cell → Cell}

theorem get_blank (width height x y : Nat) : (blank width height).get x y = {} := by
  rw [get]
  split
  · rw [blank, Array.getD_eq_getD_getElem?, Array.getElem?_replicate]
    split <;> rfl
  · rfl

/-! ## Following a cell -/

/-- **A drawing alters a cell** by `f`. -/
structure Alters (x y : Nat) (f : Cell → Cell) (s s' : Screen) : Prop where
  width : s'.width = s.width
  height : s'.height = s.height
  get : x < s.width → y < s.height → s'.get x y = f (s.get x y)

/-- **A drawing keeps a cell** as it is. -/
abbrev Keeps (x y : Nat) : Screen → Screen → Prop := Alters x y id

theorem keeps_refl (s : Screen) : Keeps x y s s := ⟨rfl, rfl, fun _ _ => rfl⟩

theorem Alters.andThen (h : Alters x y f s s') (h' : Alters x y g s' s'') :
    Alters x y (g ∘ f) s s'' where
  width := h'.width.trans h.width
  height := h'.height.trans h.height
  get hx hy := by
    rw [h'.get (h.width ▸ hx) (h.height ▸ hy), h.get hx hy]
    rfl

theorem alters_modify (x y : Nat) (f : Cell → Cell) (s : Screen) :
    Alters x y f s (s.modify x y f) where
  width := s.width_modify x y f
  height := s.height_modify x y f
  get hx hy := by rw [get_modify, if_pos ⟨rfl, rfl, hx, hy⟩]

theorem keeps_modify {x' y' : Nat} (h : ¬(x = x' ∧ y = y')) (f : Cell → Cell) (s : Screen) :
    Keeps x y s (s.modify x' y' f) where
  width := s.width_modify x' y' f
  height := s.height_modify x' y' f
  get _ _ := by
    rw [get_modify, if_neg fun hcell => h ⟨hcell.1, hcell.2.1⟩]
    rfl

/-! ## Loops -/

/-- **A loop keeps** what each of its turns keeps. -/
theorem keeps_foldl {α : Type} {draw : Screen → α → Screen} {l : List α}
    (h : ∀ a ∈ l, ∀ s, Keeps x y s (draw s a)) (s : Screen) : Keeps x y s (l.foldl draw s) := by
  induction l generalizing s with
  | nil => exact keeps_refl s
  | cons a rest ih =>
    obtain ⟨ha, hrest⟩ := List.forall_mem_cons.1 h
    exact (ha s).andThen (ih hrest (draw s a))

/-- **A loop alters a cell as the one turn does** that does not keep it. -/
theorem alters_range {draw : Screen → Nat → Screen} {n k : Nat} (hk : k < n)
    (hturn : ∀ s, Alters x y f s (draw s k))
    (hothers : ∀ i ≠ k, ∀ s, Keeps x y s (draw s i)) (s : Screen) :
    Alters x y f s ((List.range n).foldl draw s) := by
  induction n with
  | zero => exact absurd hk (Nat.not_lt_zero k)
  | succ n ih =>
    rw [List.range_succ, List.foldl_append]
    rcases Nat.lt_succ_iff_lt_or_eq.1 hk with hlt | rfl
    · exact (ih hlt).andThen (hothers n (Nat.ne_of_gt hlt) _)
    · have hbefore : Keeps x y s ((List.range k).foldl draw s) :=
        keeps_foldl (fun i hi => hothers i (Nat.ne_of_lt (List.mem_range.1 hi))) s
      exact hbefore.andThen (hturn _)

/-- **What is done to every cell of an area** is done to each of them once. -/
theorem alters_modifyArea {a : Area} (hi : i < a.width) (hj : j < a.height) (f : Cell → Cell)
    (s : Screen) : Alters (a.x + i) (a.y + j) f s (s.modifyArea a f) := by
  refine alters_range hj (fun s => ?_) (fun row hrow s => ?_) s
  · refine alters_range hi (fun s => s.alters_modify _ _ f) (fun column hcolumn s => ?_) s
    exact keeps_modify (by omega) f s
  · exact keeps_foldl (fun column _ s => keeps_modify (by omega) f s) s

theorem alters_paint {a : Area} (hi : i < a.width) (hj : j < a.height) (style : Style)
    (s : Screen) : Alters (a.x + i) (a.y + j) (Cell.painted style) s (s.paint a style) :=
  alters_modifyArea hi hj _ s

/-! ## Glyphs and rows -/

theorem keeps_drawGlyphs {x' y' : Nat} (h : y ≠ y' ∨ x < x') (glyphs : List Glyph) (s : Screen) :
    Keeps x y s (s.drawGlyphs x' y' glyphs) := by
  induction glyphs generalizing s x' with
  | nil => exact keeps_refl s
  | cons g rest ih =>
    rw [drawGlyphs]
    split
    · exact ih h s
    · have hput : Keeps x y s (s.put x' y' g.symbol g.style) := keeps_modify (by omega) _ s
      exact hput.andThen (ih (by omega) _)

/-- **Glyphs of one column** stand side by side. -/
theorem alters_drawGlyphs {glyphs : List Glyph} (hsingle : ∀ g ∈ glyphs, g.width = 1)
    (s : Screen) :
    Alters (x + i) y (Cell.overwritten · glyphs[i]?) s (s.drawGlyphs x y glyphs) := by
  induction glyphs generalizing s x i with
  | nil => exact keeps_refl s
  | cons g rest ih =>
    obtain ⟨hg, hrest⟩ := List.forall_mem_cons.1 hsingle
    rw [drawGlyphs, hg, if_neg Nat.one_ne_zero]
    cases i with
    | zero =>
      have hput : Alters x y (Cell.overwritten · (some g)) s (s.put x y g.symbol g.style) :=
        s.alters_modify x y _
      exact hput.andThen (keeps_drawGlyphs (.inr (Nat.lt_succ_self x)) rest _)
    | succ i =>
      have hput : Keeps (x + (i + 1)) y s (s.put x y g.symbol g.style) :=
        keeps_modify (by omega) _ s
      have hcolumn : x + (i + 1) = x + 1 + i := by omega
      rw [hcolumn] at hput ⊢
      exact hput.andThen (ih hrest _)

theorem keeps_drawRows {a : Area} {alignment : Alignment} {top : Nat} (h : y < top)
    (rows : List (List Glyph)) (s : Screen) :
    Keeps x y s (s.drawRows a alignment top rows) := by
  induction rows generalizing s top with
  | nil => exact keeps_refl s
  | cons row rest ih =>
    exact (keeps_drawGlyphs (.inl (Nat.ne_of_lt h)) row s).andThen (ih (Nat.lt_succ_of_lt h) _)

/-- **Rows of such glyphs**, aligned to the left, stand one below the other. -/
theorem alters_drawRows {a : Area} {rows : List (List Glyph)}
    (hsingle : ∀ row ∈ rows, ∀ g ∈ row, g.width = 1) (s : Screen) :
    Alters (a.x + i) (y + j) (Cell.overwritten · (glyphAt? rows i j)) s
      (s.drawRows a .left y rows) := by
  induction rows generalizing s y j with
  | nil => exact keeps_refl s
  | cons row rest ih =>
    obtain ⟨hrow, hrest⟩ := List.forall_mem_cons.1 hsingle
    cases j with
    | zero =>
      exact (alters_drawGlyphs hrow s).andThen (keeps_drawRows (Nat.lt_succ_self y) rest _)
    | succ j =>
      have hfirst : Keeps (a.x + i) (y + (j + 1)) s (s.drawGlyphs a.x y row) :=
        keeps_drawGlyphs (.inl (by omega)) row s
      have hline : y + (j + 1) = y + 1 + j := by omega
      rw [hline] at hfirst ⊢
      exact hfirst.andThen (ih hrest _)

/-- **A paragraph of such glyphs** shows in each cell of its area the glyph of the row and the
column. -/
theorem alters_drawParagraph {a : Area} {rows : List (List Glyph)} (hi : i < a.width)
    (hj : j < a.height) (hsingle : ∀ row ∈ rows, ∀ g ∈ row, g.width = 1) (s : Screen) :
    Alters (a.x + i) (a.y + j) (Cell.overwritten · (glyphAt? rows i j)) s
      (s.drawParagraph a .left rows) := by
  have hcut : glyphAt? (rows.take a.height) i j = glyphAt? rows i j := by
    rw [glyphAt?, glyphAt?, List.getElem?_take_of_lt hj]
  rw [drawParagraph, if_neg (Nat.ne_of_gt (Nat.zero_lt_of_lt hi)), ← hcut]
  exact alters_drawRows (fun row hrow => hsingle row (List.mem_of_mem_take hrow)) s

/-- **A scrolled paragraph can be drawn** unless it has rows that are seen, and those up to the last
of them are more than 16 bits can count. -/
theorem isSome_drawScrolled {a : Area} {alignment : Alignment} {scroll : Nat}
    {rows : List (List Glyph)} (s : Screen) :
    (s.drawScrolled a alignment scroll rows).isSome = true ↔
      (rows ≠ [] → 0 < a.width → 0 < a.height → a.height + scroll < 0x10000) := by
  rw [drawScrolled]
  split
  case isTrue hcounted =>
    simp only [Bool.or_eq_true, decide_eq_true_eq, List.isEmpty_iff] at hcounted
    simp only [Option.isSome_some, true_iff]
    intro hrows hwidth hheight
    rcases hcounted with ((hnone | hnone) | hnone) | hroom
    · exact absurd hnone hrows
    · exact absurd hnone (Nat.ne_of_gt hwidth)
    · exact absurd hnone (Nat.ne_of_gt hheight)
    · exact hroom
  case isFalse hover =>
    simp only [Bool.or_eq_true, decide_eq_true_eq, List.isEmpty_iff, not_or] at hover
    obtain ⟨⟨⟨hrows, hwidth⟩, hheight⟩, hlarge⟩ := hover
    simp only [Option.isSome_none, Bool.false_eq_true, false_iff]
    exact fun h => hlarge (h hrows (Nat.pos_of_ne_zero hwidth) (Nat.pos_of_ne_zero hheight))

theorem alters_drawScrolled {a : Area} {scroll : Nat} {rows : List (List Glyph)}
    (hi : i < a.width) (hj : j < a.height) (hsingle : ∀ row ∈ rows, ∀ g ∈ row, g.width = 1)
    (h : s.drawScrolled a .left scroll rows = some s') :
    Alters (a.x + i) (a.y + j) (Cell.overwritten · (glyphAt? rows i (scroll + j))) s s' := by
  rw [drawScrolled] at h
  split at h
  case isTrue =>
    cases h
    rw [← glyphAt?_drop]
    exact alters_drawParagraph hi hj (fun row hrow => hsingle row (List.mem_of_mem_drop hrow)) s
  case isFalse => cases h

/-! ## Frames -/

theorem keeps_drawBorder {a : Area} {border : Border} (h : border.at? a x y = none)
    (style : Style) (s : Screen) : Keeps x y s (s.drawBorder a border style) := by
  refine keeps_foldl (fun row _ s => keeps_foldl (fun column _ s => ?_) s) s
  cases hborder : border.at? a (a.x + column) (a.y + row) with
  | none => exact keeps_refl s
  | some c =>
    have hother : ¬(x = a.x + column ∧ y = a.y + row) := by
      rintro ⟨rfl, rfl⟩
      exact Option.some_ne_none c (hborder.symm.trans h)
    exact keeps_modify hother _ s

/-- **Inside a frame** nothing is drawn but the style of the area. -/
theorem alters_drawFrame {a : Area} (frame : Frame) (hi : i < a.inside.width)
    (hj : j < a.inside.height) (s : Screen) :
    Alters (a.inside.x + i) (a.inside.y + j) (Cell.painted frame.style) s
      (s.drawFrame a frame) := by
  have hright := Area.inside_lt_right hi
  have hbottom := Area.inside_lt_bottom hj
  have hx : a.inside.x + i = a.x + (i + 1) := by
    rw [Area.inside_x hi]
    omega
  have hy : a.inside.y + j = a.y + (j + 1) := by
    rw [Area.inside_y hj]
    omega
  have hborder : frame.border.at? a (a.inside.x + i) (a.inside.y + j) = none :=
    Border.at?_eq_none (by omega) (by omega) (Nat.ne_of_lt hright) (Nat.ne_of_lt hbottom)
  rw [hx] at hborder hright ⊢
  rw [hy] at hborder hbottom ⊢
  have hwidth : i + 1 < a.width := by
    rw [Area.right] at hright
    omega
  have hheight : j + 1 < a.height := by
    rw [Area.bottom] at hbottom
    omega
  have hdrawn : ¬(a.width = 0 || a.height = 0) = true := by
    rw [Bool.or_eq_true, decide_eq_true_eq, decide_eq_true_eq]
    omega
  rw [drawFrame, if_neg hdrawn]
  have hpaint := alters_paint hwidth hheight frame.style s
  exact (hpaint.andThen (keeps_drawBorder hborder frame.borderStyle _)).andThen
    (keeps_drawGlyphs (.inl (by omega)) _ _)

end Screen

end Calculator.Terminal
