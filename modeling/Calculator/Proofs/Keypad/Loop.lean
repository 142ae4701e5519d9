import Calculator.Keypad.Loop

/-!
# Runs of the keypad

What the turns of a run do to the state is followed by a fold (`State.turns`), as if every drawing
succeeded.  A run in which none breaks off ends in this state, drawn (`State.run_eq_turns`), so what
holds of all turns holds wherever a run gets to.

Two lemmas carry what is proved of all turns.  `State.Change` lists what an event can do to a state,
and every event does one of these things (`State.change_handle`); `State.turns_induction` goes from
single drawings and events to whole runs.

The loop cannot tell two states apart that a drawing makes the same (`State.AlikeDrawn`).
-/

namespace Calculator.Keypad

open Terminal

namespace State

variable {s s' : State}

/-! ## What drawing and actions change -/

theorem refresh_of_refresh (s : State) (before after : Size) :
    (s.refresh before).refresh after = s.refresh after := by
  cases h : s.showHelp <;> simp [refresh, h]

theorem showHelp_refresh (s : State) (size : Size) :
    (s.refresh size).showHelp = s.showHelp := by
  cases h : s.showHelp <;> simp [refresh, h]

/-- **Drawing only notes where the buttons are**, and whether there is room for them. -/
theorem refresh_eq (s : State) (size : Size) :
    s.refresh size =
      { s with
        tooSmall := (s.refresh size).tooSmall
        buttonAreas := (s.refresh size).buttonAreas } := by
  unfold refresh
  split <;> rfl

/-- **An action changes the expression, the result and what is said about them**, and nothing
else. -/
theorem trigger_eq (s : State) (action : Action) :
    s.trigger action =
      { s with
        input := (s.trigger action).input
        result := (s.trigger action).result
        lastError := (s.trigger action).lastError
        status := (s.trigger action).status } := by
  cases action with
  | insert token =>
    rw [trigger, press]
    split <;> rfl
  | clear | backspace => rfl
  | calculate =>
    simp only [trigger, calculate]
    split
    · rfl
    · split <;> rfl

/-! ## Turns -/

/-- **What one turn does**: the screen is drawn, and the event is handled unless the program is to
quit. -/
def turn (s : State) (t : Turn) : State :=
  let drawn := s.refresh t.size
  if drawn.shouldQuit then drawn else drawn.handle t.clipboard t.event

/-- **What the turns of a run do**, one after the other. -/
def turns (s : State) (ts : List Turn) : State := ts.foldl turn s

theorem turns_cons (s : State) (t : Turn) (rest : List Turn) :
    s.turns (t :: rest) = (s.turn t).turns rest := rfl

theorem turns_append (s : State) (front behind : List Turn) :
    s.turns (front ++ behind) = (s.turns front).turns behind :=
  List.foldl_append

/-- **What drawing and events keep is kept by every run.** -/
theorem turns_induction {motive : State → Prop}
    (refresh : ∀ s size, motive s → motive (s.refresh size))
    (handle : ∀ s clipboard event, motive s → motive (s.handle clipboard event))
    (hstart : motive s) (ts : List Turn) : motive (s.turns ts) := by
  induction ts generalizing s with
  | nil => exact hstart
  | cons t rest ih =>
    refine ih ?_
    have hdrawn := refresh s t.size hstart
    rw [turn]
    split
    · exact hdrawn
    · exact handle _ t.clipboard t.event hdrawn

/-! ## States that the loop cannot tell apart -/

/-- **Two states are alike when drawn**: a drawing of any size makes them the same. -/
def AlikeDrawn (s s' : State) : Prop := ∀ size, s.refresh size = s'.refresh size

theorem AlikeDrawn.trans {s'' : State} (h : AlikeDrawn s s') (h' : AlikeDrawn s' s'') :
    AlikeDrawn s s'' := fun size => (h size).trans (h' size)

theorem alikeDrawn_refresh (s : State) (size : Size) : AlikeDrawn (s.refresh size) s :=
  refresh_of_refresh s size

theorem AlikeDrawn.turn (h : AlikeDrawn s s') (t : Turn) : s.turn t = s'.turn t := by
  rw [State.turn, State.turn, h t.size]

/-- **Runs from states that are alike stay alike.** -/
theorem AlikeDrawn.turns (h : AlikeDrawn s s') (ts : List Turn) :
    AlikeDrawn (s.turns ts) (s'.turns ts) := by
  cases ts with
  | nil => exact h
  | cons t rest =>
    intro size
    rw [turns_cons, turns_cons, h.turn t]

theorem shouldQuit_refresh (s : State) (size : Size) :
    (s.refresh size).shouldQuit = s.shouldQuit := by
  rw [refresh_eq]

/-- **Once the program is to quit, it only draws.** -/
theorem alikeDrawn_turns_of_shouldQuit (hquit : s.shouldQuit = true) (ts : List Turn) :
    AlikeDrawn (s.turns ts) s := by
  induction ts generalizing s with
  | nil => exact fun _ => rfl
  | cons t rest ih =>
    have hdrawn : (s.refresh t.size).shouldQuit = true := by rwa [shouldQuit_refresh]
    have hturn : s.turn t = s.refresh t.size := by rw [turn, if_pos hdrawn]
    rw [turns_cons, hturn]
    exact (ih hdrawn).trans (alikeDrawn_refresh s t.size)

/-- A turn whose drawing does not break off does what the turn does. -/
theorem run_cons_of_isSome {last : Size} {t : Turn} {rest : List Turn}
    (hdrawn : (s.view t.size).isSome = true) (hrunning : s.shouldQuit = false) :
    s.run last (t :: rest) = (s.turn t).run last rest := by
  obtain ⟨screen, hview⟩ := Option.isSome_iff_exists.1 hdrawn
  have hstill : (s.refresh t.size).shouldQuit = false := by rwa [shouldQuit_refresh]
  rw [run, draw, hview, turn, Option.map_some, Option.bind_eq_bind, Option.bind_some, hstill]
  simp only [Bool.false_eq_true, if_false]

/-- **A run that gets to its end** has done what its turns do, and has drawn the screen. -/
theorem run_eq_turns {last : Size} {ts : List Turn} (h : s.run last ts = some s') :
    ∃ size, s' = (s.turns ts).refresh size := by
  induction ts generalizing s with
  | nil =>
    obtain ⟨screen, -, rfl⟩ := Option.map_eq_some_iff.1 h
    exact ⟨last, rfl⟩
  | cons t rest ih =>
    obtain ⟨drawn, hdraw, hrest⟩ := Option.bind_eq_some_iff.1 h
    obtain ⟨screen, -, rfl⟩ := Option.map_eq_some_iff.1 hdraw
    rw [turns_cons, turn]
    split at hrest
    case isTrue hquit =>
      cases hrest
      refine ⟨t.size, ?_⟩
      rw [if_pos hquit, alikeDrawn_turns_of_shouldQuit hquit rest t.size, refresh_of_refresh]
    case isFalse hrunning =>
      rw [if_neg hrunning]
      exact ih hrest

/-! ## What an event can do -/

/-- **The changes that an event can make.**  The last one leaves alone the expression, the result,
the error and the buttons. -/
inductive Change (s : State) : State → Prop
  | typed {c : Char} : isTyped c = true → Change s (s.press c.toString)
  | backspace : Change s s.backspace
  | clear : Change s s.clear
  | calculate : Change s s.calculate
  | button {area : Area} {action : Action} : (area, action) ∈ s.buttonAreas →
    Change s (s.trigger action)
  | aside (status : Option String) (shouldQuit showHelp : Bool) (helpScroll : Nat)
      (copied : Option String) :
    Change s { s with status, shouldQuit, showHelp, helpScroll, copied }

theorem Change.none : Change s s := aside s.status s.shouldQuit s.showHelp s.helpScroll s.copied

theorem change_click (s : State) (x y : Nat) : Change s (s.click x y) := by
  rw [click]
  split
  case h_1 area action hfound => exact .button (List.mem_of_find?_eq_some hfound)
  case h_2 => exact .none

theorem change_handleControl (clipboard : Clipboard) (s : State) (code : KeyCode) :
    Change s (s.handleControl clipboard code) := by
  unfold handleControl
  split
  case h_3 | h_4 => cases clipboard <;> exact .aside _ _ _ _ _
  case h_5 | h_6 => exact .clear
  all_goals exact .aside _ _ _ _ _

theorem change_handleHelpKey (s : State) (code : KeyCode) : Change s (s.handleHelpKey code) := by
  cases code <;> exact .aside _ _ _ _ _

theorem change_handleKeypadKey (s : State) (code : KeyCode) :
    Change s (s.handleKeypadKey code) := by
  cases code with
  | char c =>
    rw [handleKeypadKey]
    split
    case isTrue => exact .calculate
    case isFalse =>
      split
      case isTrue htyped => exact .typed htyped
      case isFalse => exact .none
  | enter => exact .calculate
  | backspace => exact .backspace
  | esc => exact .clear
  | _ => exact .aside _ _ _ _ _

theorem change_handleMouse (s : State) (kind : MouseKind) (x y : Nat) :
    Change s (s.handleMouse kind x y) := by
  unfold handleMouse
  split
  case h_3 => exact s.change_click x y
  all_goals exact .aside _ _ _ _ _

/-- **Every event makes one of the changes.** -/
theorem change_handle (clipboard : Clipboard) (s : State) (event : Event) :
    Change s (s.handle clipboard event) := by
  unfold handle
  split
  case h_1 code control =>
    rw [handleKey]
    split
    · exact s.change_handleControl clipboard code
    · split
      · exact s.change_handleHelpKey code
      · exact s.change_handleKeypadKey code
  case h_2 kind x y => exact s.change_handleMouse kind x y
  case h_3 => exact .none

end State

end Calculator.Keypad
