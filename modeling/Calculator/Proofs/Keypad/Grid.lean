import Calculator.Proofs.Keypad.Loop

/-!
# The buttons under the cells of the screen

The rows and the columns of the keypad meet at rounded edges, so that each cell below the status row
lies in the part of exactly one row and of exactly one column, whatever the size of the screen.  The
areas of the buttons are therefore a tiling (`buttonAreas_tiles`), and the first area that holds a
cell, which is the one a click goes to, is the only one.

Behind the help the areas of an earlier drawing are kept, and they need not fit the screen any more.
No click sees them: a click that is not the help's comes after a drawing of the keypad, and that
drawing notes where the buttons are (`State.click_hits_button`).
-/

namespace Calculator.Keypad

open Terminal

/-! ## Splitting a length -/

variable {total parts i j k x y : Nat}

/-- **A place lies in a part** if it is before the last edge. -/
theorem exists_part {edge : Nat → Nat} (hzero : edge 0 = 0) (hx : x < edge k) :
    ∃ i < k, edge i ≤ x ∧ x < edge (i + 1) := by
  induction k with
  | zero => omega
  | succ k ih =>
    rcases Nat.lt_or_ge x (edge k) with hbefore | hbehind
    · obtain ⟨i, hi, hpart⟩ := ih hbefore
      exact ⟨i, Nat.lt_succ_of_lt hi, hpart⟩
    · exact ⟨k, Nat.lt_succ_self k, hbehind, hx⟩

/-- **No place lies in two parts.** -/
theorem part_unique (hi : splitEdge total parts i ≤ x ∧ x < splitEdge total parts (i + 1))
    (hj : splitEdge total parts j ≤ x ∧ x < splitEdge total parts (j + 1)) : i = j := by
  have hle : ∀ {i j : Nat}, x < splitEdge total parts (i + 1) → splitEdge total parts j ≤ x →
      j ≤ i := by
    intro i j hbefore hbehind
    refine Nat.le_of_not_lt fun hlt => ?_
    have := @splitEdge_mono total parts _ _ (Nat.succ_le_of_lt hlt)
    exact Nat.lt_irrefl x (Nat.lt_of_lt_of_le hbefore (Nat.le_trans this hbehind))
  exact Nat.le_antisymm (hle hj.2 hi.1) (hle hi.2 hj.1)

/-- Parts are not smaller than the exact size, rounded down. -/
theorem div_le_part (hparts : 0 < parts) :
    total / parts ≤ splitEdge total parts (i + 1) - splitEdge total parts i := by
  have hquotient : parts * (total / parts) ≤ total := Nat.mul_div_le total parts
  have hnext : 2 * i * total + parts + 2 * parts * (total / parts) ≤
      2 * (i + 1) * total + parts := by
    rw [Nat.mul_add, Nat.add_mul, Nat.mul_assoc 2 parts]
    omega
  have hedge := Nat.div_le_div_right (c := 2 * parts) hnext
  rw [Nat.add_mul_div_left _ _ (by omega)] at hedge
  exact Nat.le_sub_of_add_le (Nat.add_comm _ _ ▸ hedge)

/-! ## The areas of the grid -/

/-- **The button in row `i` and column `j`.** -/
def buttonAt? (i j : Nat) : Option Button := layout[i]?.bind fun row => row[j]?

theorem exists_buttonAt (hi : i < rowCount) (hj : j < columnCount) :
    ∃ button, buttonAt? i j = some button := by
  have hall : ∀ i < rowCount, ∀ j < columnCount, (buttonAt? i j).isSome = true := by decide
  exact Option.isSome_iff_exists.1 (hall i hi j hj)

theorem lt_of_buttonAt {button : Button} (h : buttonAt? i j = some button) :
    i < rowCount ∧ j < columnCount := by
  have hrows : ∀ row ∈ layout, row.length = columnCount := by decide
  obtain ⟨row, hrow, hbutton⟩ := Option.bind_eq_some_iff.1 h
  obtain ⟨hi, -⟩ := List.getElem?_eq_some_iff.1 hrow
  obtain ⟨hj, -⟩ := List.getElem?_eq_some_iff.1 hbutton
  exact ⟨hi, hrows row (List.mem_of_getElem? hrow) ▸ hj⟩

variable {width height : Nat} {button : Button} {area : Area} {action : Action}

theorem mem_placed :
    (area, button) ∈ placed width height ↔
      ∃ i j, buttonAt? i j = some button ∧ area = cellArea width height i j := by
  simp only [placed, List.mem_flatten, List.mem_map, Prod.exists, buttonAt?,
    List.mem_zipIdx_iff_getElem?, Option.bind_eq_some_iff]
  constructor
  · rintro ⟨_, ⟨row, i, hrow, rfl⟩, hmem⟩
    simp only [List.mem_map, Prod.exists, List.mem_zipIdx_iff_getElem?, Prod.mk.injEq] at hmem
    obtain ⟨_, j, hbutton, harea, rfl⟩ := hmem
    exact ⟨i, j, ⟨row, hrow, hbutton⟩, harea.symm⟩
  · rintro ⟨i, j, ⟨row, hrow, hbutton⟩, rfl⟩
    refine ⟨_, ⟨row, i, hrow, rfl⟩, ?_⟩
    simp only [List.mem_map, Prod.exists, List.mem_zipIdx_iff_getElem?, Prod.mk.injEq]
    exact ⟨button, j, hbutton, rfl, rfl⟩

/-- **The areas of the buttons** are those of their rows and columns. -/
theorem mem_buttonAreas :
    (area, action) ∈ buttonAreas width height ↔ ∃ i j button, buttonAt? i j = some button ∧
      area = cellArea width height i j ∧ action = button.action := by
  simp only [buttonAreas, List.mem_map, Prod.exists, mem_placed, Prod.mk.injEq]
  constructor
  · rintro ⟨_, button, ⟨i, j, hbutton, rfl⟩, rfl, rfl⟩
    exact ⟨i, j, button, hbutton, rfl, rfl⟩
  · rintro ⟨i, j, button, hbutton, rfl, rfl⟩
    exact ⟨_, button, ⟨i, j, hbutton, rfl⟩, rfl, rfl⟩

/-- **The cells of an area** are those between its edges. -/
theorem contains_cellArea :
    (cellArea width height i j).contains x y = true ↔
      (splitEdge width columnCount j ≤ x ∧ x < splitEdge width columnCount (j + 1)) ∧
      5 ≤ y ∧ splitEdge (height - 5) rowCount i ≤ y - 5 ∧
        y - 5 < splitEdge (height - 5) rowCount (i + 1) := by
  have hcolumn := @splitEdge_mono width columnCount _ _ (Nat.le_add_right j 1)
  have hrow := @splitEdge_mono (height - 5) rowCount _ _ (Nat.le_add_right i 1)
  rw [Area.contains_iff]
  simp only [cellArea, keypadTop]
  omega

theorem contains_unique {i' j' : Nat} (h : (cellArea width height i j).contains x y = true)
    (h' : (cellArea width height i' j').contains x y = true) : i = i' ∧ j = j' := by
  obtain ⟨hcolumn, -, hrow⟩ := contains_cellArea.1 h
  obtain ⟨hcolumn', -, hrow'⟩ := contains_cellArea.1 h'
  exact ⟨part_unique hrow hrow', part_unique hcolumn hcolumn'⟩

/-- **Every cell below the status row lies in the area of a button.** -/
theorem exists_contains (hx : x < width) (hlow : 5 ≤ y) (hhigh : y < height) :
    ∃ i j button, buttonAt? i j = some button ∧
      (cellArea width height i j).contains x y = true := by
  have hcolumns : x < splitEdge width columnCount columnCount := by
    rwa [splitEdge_self _ _ (by decide)]
  have hrows : y - 5 < splitEdge (height - 5) rowCount rowCount := by
    rw [splitEdge_self _ _ (by decide)]
    omega
  obtain ⟨j, hj, hcolumn⟩ := exists_part (splitEdge_zero _ _ (by decide)) hcolumns
  obtain ⟨i, hi, hrow⟩ := exists_part (splitEdge_zero _ _ (by decide)) hrows
  obtain ⟨button, hbutton⟩ := exists_buttonAt hi hj
  exact ⟨i, j, button, hbutton, contains_cellArea.2 ⟨hcolumn, hlow, hrow⟩⟩

theorem lt_of_contains (hbutton : buttonAt? i j = some button)
    (h : (cellArea width height i j).contains x y = true) : x < width ∧ 5 ≤ y ∧ y < height := by
  obtain ⟨hi, hj⟩ := lt_of_buttonAt hbutton
  obtain ⟨⟨-, hright⟩, hlow, -, hbottom⟩ := contains_cellArea.1 h
  have hlastColumn : splitEdge width columnCount (j + 1) ≤ _ := splitEdge_mono hj
  have hlastRow : splitEdge (height - 5) rowCount (i + 1) ≤ _ := splitEdge_mono hi
  rw [splitEdge_self _ _ (by decide)] at hlastColumn hlastRow
  exact ⟨Nat.lt_of_lt_of_le hright hlastColumn, hlow, by omega⟩

/-! ## The tiling -/

/-- **The areas of all buttons**, as they lie on a screen of the given size. -/
structure Tiles (areas : List (Area × Action)) (width height : Nat) : Prop where
  length_eq : areas.length = 20
  /-- Each entry is the area and the action of one button of the keypad. -/
  mem_iff {area : Area} {action : Action} : (area, action) ∈ areas ↔
    ∃ i j button, buttonAt? i j = some button ∧ area = cellArea width height i j ∧
      action = button.action
  disjoint : areas.Pairwise fun a b =>
    ∀ x y, ¬ (a.1.contains x y = true ∧ b.1.contains x y = true)
  size_le : ∀ entry ∈ areas, 7 ≤ entry.1.width ∧ 3 ≤ entry.1.height
  covers (x y : Nat) : (∃ entry ∈ areas, entry.1.contains x y = true) ↔
    x < width ∧ 5 ≤ y ∧ y < height

theorem pairwise_zipIdx {α : Type} (l : List α) : l.zipIdx.Pairwise fun a b => a.2 < b.2 := by
  rw [← @List.pairwise_map _ _ Prod.snd (· < ·), List.zipIdx_map_snd]
  exact List.pairwise_lt_range'

theorem buttonAreas_disjoint (width height : Nat) :
    (buttonAreas width height).Pairwise fun a b =>
      ∀ x y, ¬ (a.1.contains x y = true ∧ b.1.contains x y = true) := by
  rw [buttonAreas, List.pairwise_map, placed, List.pairwise_flatten]
  constructor
  · -- in one row the columns differ
    simp only [List.forall_mem_map, List.pairwise_map]
    intro row _
    refine (pairwise_zipIdx row.1).imp fun hlt x y hboth => ?_
    exact absurd (contains_unique hboth.1 hboth.2).2 (Nat.ne_of_lt hlt)
  · -- in two rows the rows do
    rw [List.pairwise_map]
    refine (pairwise_zipIdx layout).imp fun hlt => ?_
    simp only [List.forall_mem_map]
    intro _ _ _ _ x y hboth
    exact absurd (contains_unique hboth.1 hboth.2).1 (Nat.ne_of_lt hlt)

/-- **The areas of the buttons tile the screen below the status row.** -/
theorem buttonAreas_tiles (hwidth : 28 ≤ width) (hheight : 20 ≤ height) :
    Tiles (buttonAreas width height) width height where
  length_eq := length_buttonAreas width height
  mem_iff := mem_buttonAreas
  disjoint := buttonAreas_disjoint width height
  size_le := by
    rintro ⟨area, action⟩ hentry
    obtain ⟨i, j, button, -, rfl, -⟩ := mem_buttonAreas.1 hentry
    have hcolumn : width / columnCount ≤ _ := @div_le_part width columnCount j (by decide)
    have hrow : (height - 5) / rowCount ≤ _ := @div_le_part (height - 5) rowCount i (by decide)
    have hleast : 7 ≤ width / columnCount := (Nat.le_div_iff_mul_le (by decide)).2 hwidth
    have hleast' : 3 ≤ (height - 5) / rowCount :=
      (Nat.le_div_iff_mul_le (by decide)).2 (Nat.le_sub_of_add_le hheight)
    exact ⟨Nat.le_trans hleast hcolumn, Nat.le_trans hleast' hrow⟩
  covers x y := by
    constructor
    · rintro ⟨⟨area, action⟩, hentry, hcontains⟩
      obtain ⟨i, j, button, hbutton, rfl, -⟩ := mem_buttonAreas.1 hentry
      exact lt_of_contains hbutton hcontains
    · rintro ⟨hx, hlow, hhigh⟩
      obtain ⟨i, j, button, hbutton, hcontains⟩ := exists_contains hx hlow hhigh
      exact ⟨_, mem_buttonAreas.2 ⟨i, j, button, hbutton, rfl, rfl⟩, hcontains⟩

namespace State

variable {s : State}

/-! ## Clicks -/

/-- **A click goes to the button under it.** -/
theorem click_eq_trigger (hareas : s.buttonAreas = Keypad.buttonAreas width height)
    (hbutton : buttonAt? i j = some button)
    (hcontains : (cellArea width height i j).contains x y = true) :
    s.click x y = s.trigger button.action := by
  rw [click, hareas]
  split
  case h_1 area action hfound =>
    -- the area that is found holds the cell, so it is that of the button
    obtain ⟨i', j', button', hbutton', rfl, rfl⟩ :=
      mem_buttonAreas.1 (List.mem_of_find?_eq_some hfound)
    have hhit := List.find?_some hfound
    obtain ⟨rfl, rfl⟩ := contains_unique hcontains hhit
    rw [hbutton] at hbutton'
    cases hbutton'
    rfl
  case h_2 hnone =>
    have hentry : (cellArea width height i j, button.action) ∈ Keypad.buttonAreas width height :=
      mem_buttonAreas.2 ⟨i, j, button, hbutton, rfl, rfl⟩
    exact absurd hcontains (List.find?_eq_none.1 hnone _ hentry)

theorem click_eq_self (h : ∀ entry ∈ s.buttonAreas, entry.1.contains x y = false) :
    s.click x y = s := by
  have hnone : s.buttonAreas.find? (fun entry => entry.1.contains x y) = none :=
    List.find?_eq_none.2 fun entry hentry => by simp [h entry hentry]
  rw [click, hnone]

theorem isTooSmall_iff {size : Size} :
    isTooSmall size = true ↔ size.width < 28 ∨ size.height < 20 := by
  rw [isTooSmall, Bool.or_eq_true, decide_eq_true_eq, decide_eq_true_eq]
  exact Iff.rfl

theorem buttonAreas_refresh {size : Size} (hkeypad : s.showHelp = false) :
    (s.refresh size).buttonAreas =
      if isTooSmall size.limited then []
      else Keypad.buttonAreas size.limited.width size.limited.height := by
  simp only [refresh, hkeypad, Bool.false_eq_true, if_false]

/-- A click that is not the help's is one on the keypad as it has just been drawn. -/
theorem turn_leftDown {size : Size} {clipboard : Clipboard}
    (hkeypad : (s.refresh size).showHelp = false) (hrunning : (s.refresh size).shouldQuit = false) :
    s.turn ⟨size, clipboard, .mouse .leftDown x y⟩ = (s.refresh size).click x y := by
  simp only [turn, hrunning, Bool.false_eq_true, if_false, handle, handleMouse, hkeypad]

/-- **A click on the keypad triggers the button that is drawn under it.**  However a run has gone,
if the keypad is shown and the left mouse button goes down, then the areas that are looked at are
those of the screen that has just been drawn.  They tile it below the status row, and the click does
what the one button does whose area holds the cell; elsewhere, and on a screen that is too small for
the keypad, it does nothing. -/
theorem click_hits_button (s : State) (ts : List Turn) (size : Size) (clipboard : Clipboard)
    (x y : Nat) (hkeypad : ((s.turns ts).refresh size).showHelp = false)
    (hrunning : ((s.turns ts).refresh size).shouldQuit = false) :
    let drawn := (s.turns ts).refresh size
    let next := (s.turns ts).turn ⟨size, clipboard, .mouse .leftDown x y⟩
    let width := size.limited.width
    let height := size.limited.height
    (width < 28 ∨ height < 20 → next = drawn) ∧
    (28 ≤ width → 20 ≤ height →
      Tiles drawn.buttonAreas width height ∧
      (x < width ∧ 5 ≤ y ∧ y < height →
        ∃ i j button, buttonAt? i j = some button ∧
          (cellArea width height i j).contains x y = true ∧ next = drawn.trigger button.action ∧
          ∀ i' j', (cellArea width height i' j').contains x y = true → i' = i ∧ j' = j) ∧
      (¬ (x < width ∧ 5 ≤ y ∧ y < height) → next = drawn)) := by
  intro drawn next width height
  have hnext : next = drawn.click x y := turn_leftDown hkeypad hrunning
  have hareas : drawn.buttonAreas =
      if isTooSmall size.limited then [] else Keypad.buttonAreas width height :=
    buttonAreas_refresh (by rwa [showHelp_refresh] at hkeypad)
  rw [hnext]
  constructor
  · intro hsmall
    rw [isTooSmall_iff.2 hsmall, if_pos rfl] at hareas
    exact click_eq_self (by simp [hareas])
  · intro hwidth hheight
    have hroom : ¬ isTooSmall size.limited = true := fun hsmall => by
      rcases isTooSmall_iff.1 hsmall with hnarrow | hlow
      · exact Nat.not_lt.2 hwidth hnarrow
      · exact Nat.not_lt.2 hheight hlow
    rw [if_neg hroom] at hareas
    have htiles : Tiles drawn.buttonAreas width height := by
      rw [hareas]
      exact buttonAreas_tiles hwidth hheight
    refine ⟨htiles, ?_, fun hbeside => ?_⟩
    · rintro ⟨hx, hlow, hhigh⟩
      obtain ⟨i, j, button, hbutton, hcontains⟩ := exists_contains hx hlow hhigh
      exact ⟨i, j, button, hbutton, hcontains, click_eq_trigger hareas hbutton hcontains,
        fun i' j' hcontains' => contains_unique hcontains' hcontains⟩
    · refine click_eq_self fun entry hentry => Bool.eq_false_iff.2 fun hcontains => ?_
      exact hbeside ((htiles.covers x y).1 ⟨entry, hentry, hcontains⟩)

/-- After the window has been enlarged behind the help, a click goes to the button that is there
now. -/
theorem click_hits_five :
    let help : Event := .key .f1 false .press
    let ts : List Turn :=
      [⟨⟨28, 20⟩, .works, .type '7'⟩, ⟨⟨28, 20⟩, .works, help⟩, ⟨⟨40, 25⟩, .works, help⟩]
    let s := ({} : State).turns ts
    (s.refresh ⟨40, 25⟩).showHelp = false ∧ (s.refresh ⟨40, 25⟩).shouldQuit = false ∧
      (s.turn ⟨⟨40, 25⟩, .works, .mouse .leftDown 12 14⟩).input = "75" := by
  intro help ts s
  have hkeypad : (s.refresh ⟨40, 25⟩).showHelp = false := by decide
  have hrunning : (s.refresh ⟨40, 25⟩).shouldQuit = false := by decide
  have hclick := click_hits_button {} ts ⟨40, 25⟩ .works 12 14 hkeypad hrunning
  obtain ⟨-, hroom⟩ := hclick
  obtain ⟨-, hhit, -⟩ := hroom (by decide) (by decide)
  obtain ⟨i, j, button, hbutton, -, hnext, hunique⟩ := hhit (by decide)
  obtain ⟨rfl, rfl⟩ := hunique 2 1 (by decide)
  cases hbutton
  refine ⟨hkeypad, hrunning, ?_⟩
  rw [hnext]
  decide

end State

end Calculator.Keypad
