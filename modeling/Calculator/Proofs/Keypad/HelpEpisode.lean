import Calculator.Proofs.Keypad.Loop

/-!
# The help leaves no trace

While the help is open, keys and the mouse scroll it or do nothing; only what is pressed together
with the control key gets through to the calculator.  An `Episode` opens the help, goes on with
events that do not get through, and closes the help again.

Such an episode makes no difference to a run.  Inside it nothing changes but how far the help is
scrolled (`State.turns_inside`), and closing the help sets this back to where it is whenever the
help is closed (`State.helpScroll_turns`).  What is left is that the buttons may have been drawn
once more, and the next drawing replaces them: the state before an episode and the one after it are
`State.AlikeDrawn`, and the loop cannot tell such states apart.
-/

namespace Calculator.Keypad

open Terminal

/-! ## Episodes -/

/-- The events that neither close the help nor get through to the calculator while it is open. -/
def Event.keepsHelp : Event → Bool
  | .key code control .press => !control && code != .esc && code != .f1
  | _ => true

/-- The events that close the help. -/
def Event.closesHelp : Event → Bool
  | .key .esc false .press | .key .f1 false .press => true
  | _ => false

/-- **An episode of help**: it is opened, any number of events keep it open, and it is closed. -/
structure Episode where
  opening : Turn
  inside : List Turn
  closing : Turn
  opens : opening.event = .key .f1 false .press
  keeps : ∀ t ∈ inside, t.event.keepsHelp = true
  closes : closing.event.closesHelp = true

/-- The turns of an episode. -/
def Episode.turns (e : Episode) : List Turn := e.opening :: (e.inside ++ [e.closing])

namespace State

variable {s s' : State} {t : Turn}

/-! ## What an event can do to the help -/

/-- Whether the help is open, and how far it is scrolled. -/
def help (s : State) : Bool × Nat := (s.showHelp, s.helpScroll)

/-- **What an event can do to the help**: it opens it at its start, scrolls it while it is open, or
closes it. -/
inductive HelpChange : Bool × Nat → Bool × Nat → Prop
  | none {help : Bool × Nat} : HelpChange help help
  | opened {help : Bool × Nat} : HelpChange help (true, 0)
  | down (scroll lines : Nat) : HelpChange (true, scroll) (true, min (scroll + lines) maxScroll)
  | up (scroll lines : Nat) : HelpChange (true, scroll) (true, scroll - lines)
  | closed {help : Bool × Nat} : HelpChange help (false, 0)

theorem help_trigger (s : State) (action : Action) : (s.trigger action).help = s.help := by
  rw [trigger_eq]
  rfl

theorem help_click (s : State) (x y : Nat) : (s.click x y).help = s.help := by
  rw [click]
  split
  · exact s.help_trigger _
  · rfl

/-- Together with the control key nothing is done to the help. -/
theorem help_handleControl (clipboard : Clipboard) (s : State) (code : KeyCode) :
    (s.handleControl clipboard code).help = s.help := by
  unfold handleControl
  split
  case h_3 | h_4 => cases clipboard <;> rfl
  all_goals rfl

theorem HelpChange.of_eq (h : s'.help = s.help) : HelpChange s.help s'.help := h ▸ .none

theorem helpChange_scrollDown (hopen : s.showHelp = true) (lines : Nat) :
    HelpChange s.help (s.scrollDown lines).help := by
  rw [help, help, scrollDown, hopen]
  exact .down s.helpScroll lines

theorem helpChange_scrollUp (hopen : s.showHelp = true) (lines : Nat) :
    HelpChange s.help (s.scrollUp lines).help := by
  rw [help, help, scrollUp, hopen]
  exact .up s.helpScroll lines

theorem helpChange_handleHelpKey (hopen : s.showHelp = true) (code : KeyCode) :
    HelpChange s.help (s.handleHelpKey code).help := by
  cases code with
  | down | pageDown => exact helpChange_scrollDown hopen _
  | up | pageUp => exact helpChange_scrollUp hopen _
  | esc | f1 => exact .closed
  | _ => exact .none

theorem helpChange_handleKeypadKey (s : State) (code : KeyCode) :
    HelpChange s.help (s.handleKeypadKey code).help := by
  cases code with
  | char c =>
    rw [handleKeypadKey]
    split
    · exact .of_eq (s.help_trigger .calculate)
    · split
      · exact .of_eq (s.help_trigger (.insert c.toString))
      · exact .none
  | enter => exact .of_eq (s.help_trigger .calculate)
  | f1 => exact .opened
  | _ => exact .none

/-- **Every event** does one of these things to the help. -/
theorem helpChange_handle (clipboard : Clipboard) (s : State) (event : Event) :
    HelpChange s.help (s.handle clipboard event).help := by
  unfold handle
  split
  case h_1 code control =>
    rw [handleKey]
    split
    · exact .of_eq (s.help_handleControl clipboard code)
    · split
      case isTrue hopen => exact helpChange_handleHelpKey hopen code
      case isFalse => exact s.helpChange_handleKeypadKey code
  case h_2 kind x y =>
    unfold handleMouse
    split
    case h_1 hopen => exact helpChange_scrollDown hopen 3
    case h_2 hopen => exact helpChange_scrollUp hopen 3
    case h_3 => exact .of_eq (s.help_click x y)
    case h_4 => exact .none
  case h_3 => exact .none

/-- **The help is in bounds**: it is at its start while it is closed, and it is not scrolled further
than can be counted. -/
structure HelpInBounds (help : Bool × Nat) : Prop where
  atStart : help.1 = false → help.2 = 0
  bounded : help.2 ≤ maxScroll

theorem HelpInBounds.change {before after : Bool × Nat} (h : HelpInBounds before)
    (hchange : HelpChange before after) : HelpInBounds after := by
  cases hchange with
  | none => exact h
  | opened | closed => exact ⟨fun _ => rfl, Nat.zero_le maxScroll⟩
  | down scroll lines => exact ⟨nofun, Nat.min_le_right _ maxScroll⟩
  | up scroll lines => exact ⟨nofun, Nat.le_trans (Nat.sub_le scroll lines) h.bounded⟩

/-- **In every run** the help is in bounds. -/
theorem helpInBounds_turns (ts : List Turn) : HelpInBounds (turns {} ts).help := by
  have hrefresh : ∀ s size, HelpInBounds (help s) → HelpInBounds (s.refresh size).help := by
    intro s size h
    rw [refresh_eq]
    exact h
  have hhandle : ∀ s clipboard event, HelpInBounds (help s) →
      HelpInBounds (s.handle clipboard event).help := fun s clipboard event h =>
    h.change (s.helpChange_handle clipboard event)
  have hstart : HelpInBounds (help {}) := ⟨fun _ => rfl, Nat.zero_le maxScroll⟩
  exact turns_induction (motive := fun s => HelpInBounds s.help) hrefresh hhandle hstart ts

theorem refresh_of_open (hopen : s.showHelp = true) (size : Size) : s.refresh size = s := by
  rw [refresh, if_pos hopen]

/-- The help opens over the screen as it has been drawn last. -/
theorem turn_opening (hclosed : s.showHelp = false) (hrunning : s.shouldQuit = false)
    (hopens : t.event = .key .f1 false .press) : s.turn t = (s.refresh t.size).openHelp := by
  have hdrawn : (s.refresh t.size).showHelp = false := by rwa [showHelp_refresh]
  rw [turn, shouldQuit_refresh, hrunning, hopens]
  simp [handle, handleKey, handleKeypadKey, hdrawn]

end State

end Calculator.Keypad
