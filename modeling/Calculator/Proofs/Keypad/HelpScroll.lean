import Calculator.Keypad.View
import Calculator.Proofs.Keypad.HelpEpisode
import Calculator.Proofs.SingleColumn
import Calculator.Proofs.Terminal.Drawing
import Calculator.Proofs.Terminal.Wrapping

/-!
# The scrolled help

The help fills the screen with the rows of its text.  Its characters are those of ASCII, so that
each takes one cell and a row stands on the screen character by character.  A state
`State.ShowsHelp` from a row on if it can be drawn and each cell inside the frame has the character
of its row and column, and is blank where the text has none.

What is seen follows the count of lines that the help is scrolled by as long as that count and the
rows of the screen together are below `2 ^ 16` (`State.help_follows_scroll`).  The drawing knows
only 16 bits of the count, which goes on up to `2 ^ 64`.  At the last counts before `2 ^ 16` the
drawing breaks off, and on a screen with fewer rows than a page has lines they can be passed over:
then the help is seen from its first row again, far behind its last one (`State.run_past_counter`).
-/

namespace Calculator.Keypad

open Terminal

/-! ## The rows of the help -/

/-- **The rows of the help** on a screen whose frame has that many columns inside. -/
def helpRows (columns : Nat) : List (List Glyph) := wrapLines columns helpText

theorem helpText_ascii_short :
    (helpText.all fun line => line.all fun span => span.text.all fun c => c.toNat < 128) = true ∧
      (helpText.map fun line => (line.map fun span => span.text.length).sum + 2).sum ≤ 2000 := by
  decide +kernel

/-- **Each glyph of the help takes one column.** -/
theorem width_of_mem_helpRows {columns : Nat} {row : List Glyph} {g : Glyph}
    (hrow : row ∈ helpRows columns) (hg : g ∈ row) : g.width = 1 := by
  obtain ⟨line, hline, hglyph⟩ := mem_of_mem_wrapLines hrow hg
  obtain ⟨span, hspan, hmem⟩ := List.mem_flatMap.1 hglyph
  have hascii := List.all_eq_true.1 (List.all_eq_true.1 helpText_ascii_short.1 line hline) span
    hspan
  exact width_of_mem_glyphs (fun c hc => of_decide_eq_true (List.all_eq_true.1 hascii c hc)) hmem

/-- **The help has few rows**, however narrow the screen. -/
theorem length_helpRows_le (columns : Nat) : (helpRows columns).length ≤ 2000 :=
  Nat.le_trans (length_wrapLines_le columns helpText) helpText_ascii_short.2

/-! ## What is seen of them -/

/-- The area inside the frame of the help, on a screen of a given size. -/
def helpArea (size : Size) : Area := (Area.mk 0 0 size.limited.width size.limited.height).inside

/-- **The rows of the screen and those left out above them can be counted** in 16 bits, if there is
any room for rows. -/
def HelpFits (size : Size) (scroll : Nat) : Prop :=
  0 < (helpArea size).width → 0 < (helpArea size).height →
    (helpArea size).height + scroll % 2 ^ 16 < 2 ^ 16

/-- **The cell of a glyph of the help**, or the empty one where there is none. -/
def helpCell (g : Option Glyph) : Cell := Cell.overwritten (Cell.painted helpFrame.style {}) g

/-- The lines that an event scrolls the open help down by. -/
def Event.linesDown : Event → Nat
  | .key .down false .press => 1
  | .key .pageDown false .press => 10
  | .mouse .scrollDown _ _ => 3
  | _ => 0

namespace State

variable {s : State} {t : Turn}

/-- **The help is seen from a row on**: it can be drawn, and inside its frame are the glyphs of that
row and of those below it, and nothing where they end. -/
def ShowsHelp (s : State) (size : Size) (first : Nat) : Prop :=
  ∃ screen, s.view size = some screen ∧
    ∀ column < (helpArea size).width, ∀ row < (helpArea size).height,
      screen.get ((helpArea size).x + column) ((helpArea size).y + row) =
        helpCell (glyphAt? (helpRows (helpArea size).width) column (first + row))

theorem view_of_open (hopen : s.showHelp = true) (size : Size) :
    s.view size = ((Screen.blank size.limited.width size.limited.height).drawFrame
      (.mk 0 0 size.limited.width size.limited.height) helpFrame).drawScrolled (helpArea size)
        .left (skippedRows s.helpScroll) (helpRows (helpArea size).width) := by
  rw [State.view, if_pos hopen]
  rfl

/-- **The open help can be drawn** wherever its rows can be counted. -/
theorem isSome_view (hopen : s.showHelp = true) (size : Size) :
    (s.view size).isSome = true ↔ HelpFits size s.helpScroll := by
  have hrows : helpRows (helpArea size).width ≠ [] :=
    wrapLines_ne_nil (List.cons_ne_nil _ _) (helpArea size).width
  rw [view_of_open hopen, Screen.isSome_drawScrolled]
  exact ⟨fun h => h hrows, fun h _ => h⟩

/-- It is seen from the row behind those that are left out. -/
theorem showsHelp_of_open (hopen : s.showHelp = true) {size : Size}
    (hfits : HelpFits size s.helpScroll) : s.ShowsHelp size (skippedRows s.helpScroll) := by
  obtain ⟨screen, hview⟩ := Option.isSome_iff_exists.1 ((isSome_view hopen size).2 hfits)
  refine ⟨screen, hview, fun column hcolumn row hrow => ?_⟩
  rw [view_of_open hopen] at hview
  have hframe := Screen.alters_drawFrame helpFrame hcolumn hrow
    (.blank size.limited.width size.limited.height)
  have hdrawn := hframe.andThen (Screen.alters_drawScrolled hcolumn hrow
    (fun glyphs hglyphs g hg => width_of_mem_helpRows hglyphs hg) hview)
  have hx : (helpArea size).x + column < 0 + size.limited.width :=
    Nat.lt_of_succ_lt (Area.inside_lt_right hcolumn)
  have hy : (helpArea size).y + row < 0 + size.limited.height :=
    Nat.lt_of_succ_lt (Area.inside_lt_bottom hrow)
  rw [Nat.zero_add] at hx hy
  refine (hdrawn.get hx hy).trans ?_
  rw [Screen.get_blank, Function.comp_apply, helpCell]

theorem showsHelp_of_count (hopen : s.showHelp = true) (hcount : s.helpScroll < 2 ^ 16)
    {size : Size} (hfits : HelpFits size s.helpScroll) : s.ShowsHelp size s.helpScroll := by
  have hskipped : skippedRows s.helpScroll = s.helpScroll := Nat.mod_eq_of_lt hcount
  have hseen := showsHelp_of_open hopen hfits
  rwa [hskipped] at hseen

/-! ## Scrolling down -/

theorem handle_of_down (hopen : s.showHelp = true) (clipboard : Clipboard) {event : Event}
    (hdown : 0 < event.linesDown) :
    s.handle clipboard event = s.scrollDown event.linesDown := by
  unfold Event.linesDown at hdown ⊢
  split at hdown
  case h_1 | h_2 => simp [handle, handleKey, handleHelpKey, hopen]
  case h_3 => simp [handle, handleMouse, hopen]
  case h_4 => exact absurd hdown (Nat.lt_irrefl 0)

theorem scrollDown_zero (hbounded : s.helpScroll ≤ maxScroll) : s.scrollDown 0 = s := by
  rw [scrollDown, Nat.add_zero, Nat.min_eq_left hbounded]

theorem scrollDown_scrollDown (s : State) (m n : Nat) :
    (s.scrollDown m).scrollDown n = s.scrollDown (m + n) := by
  have hcount : min (min (s.helpScroll + m) maxScroll + n) maxScroll =
      min (s.helpScroll + (m + n)) maxScroll := by omega
  rw [scrollDown, scrollDown, scrollDown, ← hcount]

/-- An event that scrolls down is handled unless the program is to quit. -/
theorem turn_down (hopen : s.showHelp = true) (hbounded : s.helpScroll ≤ maxScroll)
    (hdown : 0 < t.event.linesDown) :
    s.turn t = s.scrollDown (if s.shouldQuit then 0 else t.event.linesDown) := by
  rw [turn, refresh_of_open hopen]
  split
  · rw [scrollDown_zero hbounded]
  · exact handle_of_down hopen t.clipboard hdown

/-- **Scrolling down on and on** adds up, as far as can be counted. -/
theorem turns_down {ts : List Turn} (hopen : s.showHelp = true)
    (hbounded : s.helpScroll ≤ maxScroll) (hdown : ∀ t ∈ ts, 0 < t.event.linesDown) :
    s.turns ts =
      s.scrollDown (if s.shouldQuit then 0 else (ts.map fun t => t.event.linesDown).sum) := by
  induction ts generalizing s with
  | nil =>
    rw [List.map_nil, List.sum_nil, ite_self, scrollDown_zero hbounded]
    rfl
  | cons t rest ih =>
    obtain ⟨hfirst, hrest⟩ := List.forall_mem_cons.1 hdown
    rw [turns_cons, turn_down hopen hbounded hfirst,
      ih (s := s.scrollDown _) hopen (Nat.min_le_right _ maxScroll) hrest, scrollDown_scrollDown]
    cases hquit : s.shouldQuit <;> simp [scrollDown, hquit]

/-! ## The count and the rows -/

/-- **The help follows the count.**  Wherever the help is open in a run, and whatever the size of
the screen, the help can be drawn exactly if its rows can be counted in 16 bits, and it is seen then
behind the rows that are left out, of which there are as many as the count says, in 16 bits.
Scrolling down keeps the help open and never lowers the count: as long as the count is below
`2 ^ 16` and the help can be drawn, it is seen from just that row on before and after. -/
theorem help_follows_scroll (ts down : List Turn) (size : Size)
    (hopen : (turns {} ts).showHelp = true) (hdown : ∀ t ∈ down, 0 < t.event.linesDown) :
    let s := turns {} ts
    let s' := turns {} (ts ++ down)
    ((s.view size).isSome = true ↔ HelpFits size s.helpScroll) ∧
      (HelpFits size s.helpScroll → s.ShowsHelp size (s.helpScroll % 2 ^ 16)) ∧
      s'.showHelp = true ∧ s.helpScroll ≤ s'.helpScroll ∧ s'.helpScroll ≤ maxScroll ∧
      (s'.helpScroll < 2 ^ 16 → HelpFits size s'.helpScroll →
        s.ShowsHelp size s.helpScroll ∧ s'.ShowsHelp size s'.helpScroll) := by
  intro s s'
  have hbounded : s.helpScroll ≤ maxScroll := (helpInBounds_turns ts).bounded
  have hscrolled := turns_down hopen hbounded hdown
  have hend : s' = s.scrollDown _ := (turns_append {} ts down).trans hscrolled
  have hstill : s'.showHelp = true := by
    rw [hend]
    exact hopen
  have hlater : s.helpScroll ≤ s'.helpScroll := by
    rw [hend]
    exact Nat.le_min.2 ⟨Nat.le_add_right _ _, hbounded⟩
  refine ⟨isSome_view hopen size, showsHelp_of_open hopen, hstill, hlater,
    (helpInBounds_turns (ts ++ down)).bounded, fun hcount hfits => ⟨?_, ?_⟩⟩
  · have hbefore : s.helpScroll < 2 ^ 16 := Nat.lt_of_le_of_lt hlater hcount
    refine showsHelp_of_count hopen hbefore fun hwidth hheight => ?_
    have hafter := hfits hwidth hheight
    rw [Nat.mod_eq_of_lt hcount] at hafter
    rw [Nat.mod_eq_of_lt hbefore]
    exact Nat.lt_of_le_of_lt (Nat.add_le_add_left hlater _) hafter
  · exact showsHelp_of_count hstill hcount hfits

/-- Behind a page and four lines the help is seen from its fifteenth row on. -/
theorem help_follows_scroll_page :
    let size : Size := ⟨60, 24⟩
    let ts : List Turn := [⟨size, .works, .key .f1 false .press⟩,
      ⟨size, .works, .key .pageDown false .press⟩]
    let down : List Turn := [⟨size, .works, .key .down false .press⟩,
      ⟨size, .works, .mouse .scrollDown 5 5⟩]
    (turns {} ts).showHelp = true ∧ (∀ t ∈ down, 0 < t.event.linesDown) ∧
      (turns {} (ts ++ down)).helpScroll = 14 ∧ (turns {} (ts ++ down)).ShowsHelp size 14 := by
  intro size ts down
  have hopen : (turns {} ts).showHelp = true := by decide
  have hdown : ∀ t ∈ down, 0 < t.event.linesDown := by decide
  have hcount : (turns {} (ts ++ down)).helpScroll = 14 := by decide
  obtain ⟨-, -, -, -, -, hseen⟩ := help_follows_scroll ts down size hopen hdown
  rw [hcount] at hseen
  exact ⟨hopen, hdown, hcount, (hseen (by decide) fun _ _ => by decide).2⟩

/-! ## Past the counter -/

theorem isSome_view_of_closed (hclosed : s.showHelp = false) (size : Size) :
    (s.view size).isSome = true := by
  simp only [view, hclosed, Bool.false_eq_true, if_false]
  split <;> rfl

theorem draw_of_open (hopen : s.showHelp = true) {size : Size}
    (hfits : HelpFits size s.helpScroll) : s.draw size = some s := by
  obtain ⟨screen, hview⟩ := Option.isSome_iff_exists.1 ((isSome_view hopen size).2 hfits)
  rw [draw, hview, Option.map_some, refresh_of_open hopen]

theorem run_cons_of_down {last : Size} {rest : List Turn} (hopen : s.showHelp = true)
    (hrunning : s.shouldQuit = false) (hbounded : s.helpScroll ≤ maxScroll)
    (hdown : 0 < t.event.linesDown) (hfits : HelpFits t.size s.helpScroll) :
    s.run last (t :: rest) = (s.scrollDown t.event.linesDown).run last rest := by
  rw [run_cons_of_isSome ((isSome_view hopen t.size).2 hfits) hrunning,
    turn_down hopen hbounded hdown, hrunning]
  rfl

/-- **Turns that scroll down go through** as long as the screen has fewer rows than are left to
`2 ^ 16`. -/
theorem run_append_of_down {size : Size} {ts rest : List Turn} (hopen : s.showHelp = true)
    (hrunning : s.shouldQuit = false) (hbounded : s.helpScroll ≤ maxScroll)
    (hdown : ∀ t ∈ ts, 0 < t.event.linesDown) (hsize : ∀ t ∈ ts, t.size = size)
    (hcounted : s.helpScroll + (ts.map fun t => t.event.linesDown).sum + (helpArea size).height <
      2 ^ 16) :
    s.run size (ts ++ rest) =
      (s.scrollDown (ts.map fun t => t.event.linesDown).sum).run size rest := by
  induction ts generalizing s with
  | nil => rw [List.map_nil, List.sum_nil, scrollDown_zero hbounded, List.nil_append]
  | cons t ts ih =>
    obtain ⟨hfirst, hrest⟩ := List.forall_mem_cons.1 hdown
    obtain ⟨hthis, hothers⟩ := List.forall_mem_cons.1 hsize
    rw [List.map_cons, List.sum_cons] at hcounted ⊢
    have hfits : HelpFits t.size s.helpScroll := by
      intro _ _
      rw [hthis, Nat.mod_eq_of_lt (by omega)]
      omega
    have hnext : (s.scrollDown t.event.linesDown).helpScroll ≤ s.helpScroll + t.event.linesDown :=
      Nat.min_le_left _ maxScroll
    rw [List.cons_append, run_cons_of_down hopen hrunning hbounded hfirst hfits,
      ih (s := s.scrollDown _) hopen hrunning (Nat.min_le_right _ maxScroll) hrest hothers
        (by omega), scrollDown_scrollDown]

/-- **Past `2 ^ 16` the help begins anew.**  On a screen with few enough rows, a run that opens the
help and scrolls it down to exactly `2 ^ 16` gets to its end, and the help is seen from its first
row on. -/
theorem run_past_counter {size : Size} {opening : Turn} {ts : List Turn}
    (hopens : opening.event = .key .f1 false .press)
    (hdown : ∀ t ∈ ts, 0 < t.event.linesDown) (hsize : ∀ t ∈ ts, t.size = size)
    (hcounted : (ts.map fun t => t.event.linesDown).sum + (helpArea size).height < 2 ^ 16)
    (hlast : 0 < t.event.linesDown) (hlastsize : t.size = size)
    (hlines : (ts.map fun t => t.event.linesDown).sum + t.event.linesDown = 2 ^ 16) :
    ∃ s, run {} size (opening :: (ts ++ [t])) = some s ∧ s.helpScroll = 2 ^ 16 ∧
      s.ShowsHelp size 0 := by
  generalize hsum : (ts.map fun t => t.event.linesDown).sum = lines at hcounted hlines
  have hopened : turn {} opening = (refresh opening.size {}).openHelp := turn_opening rfl rfl hopens
  have hquiet : (refresh opening.size {}).openHelp.shouldQuit = false :=
    shouldQuit_refresh {} opening.size
  generalize hs : (refresh opening.size {}).openHelp = s at hopened hquiet
  have hopen : s.showHelp = true := hs ▸ rfl
  have hstart : s.helpScroll = 0 := hs ▸ rfl
  have hbounded : s.helpScroll ≤ maxScroll := hstart ▸ Nat.zero_le maxScroll
  have hbefore : (s.scrollDown lines).helpScroll = lines := by
    rw [scrollDown, hstart, Nat.zero_add]
    exact Nat.min_eq_left (by unfold maxScroll; omega)
  have hafter : (s.scrollDown (2 ^ 16)).helpScroll = 2 ^ 16 := by
    rw [scrollDown, hstart]
    exact Nat.min_eq_left (by decide)
  have hfits : HelpFits size (s.scrollDown lines).helpScroll := by
    intro _ _
    rw [hbefore, Nat.mod_eq_of_lt (by omega)]
    omega
  have hfitsanew : HelpFits size (s.scrollDown (2 ^ 16)).helpScroll := by
    intro _ _
    rw [hafter, Nat.mod_self]
    omega
  refine ⟨s.scrollDown (2 ^ 16), ?_, hafter, ?_⟩
  · calc run {} size (opening :: (ts ++ [t]))
        = s.run size (ts ++ [t]) := by
          rw [run_cons_of_isSome (isSome_view_of_closed rfl opening.size) rfl, hopened]
      _ = (s.scrollDown lines).run size [t] := by
          rw [run_append_of_down hopen hquiet hbounded hdown hsize (by rw [hsum]; omega), hsum]
      _ = (s.scrollDown (2 ^ 16)).run size [] := by
          rw [run_cons_of_down (s := s.scrollDown lines) hopen hquiet (Nat.min_le_right _ maxScroll)
            hlast (hlastsize ▸ hfits), scrollDown_scrollDown, hlines]
      _ = some (s.scrollDown (2 ^ 16)) := draw_of_open (s := s.scrollDown _) hopen hfitsanew
  · have hseen := showsHelp_of_open (s := s.scrollDown _) hopen hfitsanew
    rwa [hafter] at hseen

theorem ShowsHelp.not_behind {first : Nat} (h : s.ShowsHelp ⟨60, 8⟩ 0) (hfirst : 2000 ≤ first) :
    ¬ s.ShowsHelp ⟨60, 8⟩ first := by
  intro hbehind
  have harea : helpArea ⟨60, 8⟩ = ⟨1, 1, 58, 6⟩ := by decide
  have hglyph : glyphAt? (helpRows 58) 0 (0 + 0) = some ⟨['S'], .boldInk .green⟩ := by
    decide +kernel
  have hnone : glyphAt? (helpRows 58) 0 (first + 0) = none :=
    glyphAt?_of_length_le (Nat.le_trans (length_helpRows_le 58) hfirst) 0
  rw [ShowsHelp, harea] at h hbehind
  obtain ⟨screen, hview, hseen⟩ := h
  obtain ⟨screen', hview', hbehind⟩ := hbehind
  cases hview.symm.trans hview'
  have hsame := (hseen 0 (by decide) 0 (by decide)).symm.trans (hbehind 0 (by decide) 0 (by decide))
  rw [hglyph, hnone] at hsame
  exact absurd (congrArg Cell.symbol hsame) (by decide)

/-- On a screen of eight rows, 6552 pages, six lines and another page make `2 ^ 16` lines, and every
drawing on the way there goes through. -/
theorem not_shows_past_end :
    let size : Size := ⟨60, 8⟩
    let opening : Turn := ⟨size, .works, .key .f1 false .press⟩
    let page : Turn := ⟨size, .works, .key .pageDown false .press⟩
    let line : Turn := ⟨size, .works, .key .down false .press⟩
    ∃ s, run {} size (opening :: (List.replicate 6552 page ++ List.replicate 6 line ++ [page])) =
        some s ∧
      s.helpScroll = 2 ^ 16 ∧ s.ShowsHelp size 0 ∧ ¬ s.ShowsHelp size s.helpScroll := by
  intro size opening page line
  generalize hpages : List.replicate 6552 page ++ List.replicate 6 line = down
  have hturns : ∀ t ∈ down, 0 < t.event.linesDown ∧ t.size = size := by
    intro t ht
    rw [← hpages] at ht
    rcases List.mem_append.1 ht with hpage | hline
    · rw [(List.mem_replicate.1 hpage).2]
      exact ⟨by decide, rfl⟩
    · rw [(List.mem_replicate.1 hline).2]
      exact ⟨by decide, rfl⟩
  have hsum : (down.map fun t => t.event.linesDown).sum = 65526 := by
    rw [← hpages]
    simp only [List.map_append, List.map_replicate, List.sum_append, List.sum_replicate]
    rfl
  have hrun : ∃ s, run {} size (opening :: (down ++ [page])) = some s ∧
      s.helpScroll = 2 ^ 16 ∧ s.ShowsHelp size 0 :=
    run_past_counter rfl (fun t ht => (hturns t ht).1) (fun t ht => (hturns t ht).2)
      (by rw [hsum]; decide) (by decide) rfl (by rw [hsum]; decide)
  obtain ⟨s, hend, hcount, hseen⟩ := hrun
  refine ⟨s, hend, hcount, hseen, hseen.not_behind ?_⟩
  rw [hcount]
  decide

end State

end Calculator.Keypad
