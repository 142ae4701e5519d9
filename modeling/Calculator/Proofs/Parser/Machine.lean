import Calculator.Proofs.Parser.Exact
import Mathlib.Logic.Relation

/-!
# The parser with its counters

The rules of the parser are functions that go into one another, and what a run of them costs cannot
be seen in their results.  `Machine` makes the run visible: it counts the tokens that have been
taken and the levels that are open, and it keeps the activations that wait for the rule they have
called, each with the counters it was entered with.  One `step` calls a rule or goes on behind one
that has returned; so a run is a sequence of steps, and a machine without a step has halted.

The counters are the machine's own work: a level is opened and closed by an addition and a
subtraction, and nothing resets a counter.  `Machine.Sound` is what every step keeps
(`Sound.step`), and from it follows for every moment of every run that the tokens taken are not more
than there are, that the levels counted are those that are open and not too many, and what a rule
has done when it returns (`Returned`).
-/

namespace Calculator.Parser

/-! ## Counters, activations and machines -/

/-- **The counters**: how many tokens have been taken, and how many levels are open. -/
structure Cursor where
  current : Nat
  nesting : Nat
deriving DecidableEq

/-- Takes a token. -/
def Cursor.advance (c : Cursor) : Cursor := { c with current := c.current + 1 }

/-- Opens a level. -/
def Cursor.openLevel (c : Cursor) : Cursor := { c with nesting := c.nesting + 1 }

/-- Closes a level. -/
def Cursor.closeLevel (c : Cursor) : Cursor := { c with nesting := c.nesting - 1 }

/-- The kinds of chains. -/
inductive ChainKind where
  | sum
  | product
deriving DecidableEq

/-- The operators of a chain. -/
def ChainKind.op? : ChainKind → Token → Option BinaryOp
  | sum => sumOp?
  | product => productOp?

/-- **What can be called**: the rules, and an inner rule on a level of its own. -/
inductive Call where
  | chain (kind : ChainKind)
  | signed
  | power
  | primary
  | nested (inner : Call)
deriving DecidableEq

/-- The operands of a chain. -/
def ChainKind.operand : ChainKind → Call
  | sum => .chain product
  | product => .signed

/-- **Where an activation waits**, with the trees it holds. -/
inductive Point where
  /-- For the first operand of a chain. -/
  | first (kind : ChainKind)
  /-- For a further operand of a chain; `left` has been read before `op`. -/
  | next (kind : ChainKind) (op : BinaryOp) (left : Subtree)
  /-- For the operand of a sign. -/
  | operand (op : UnaryOp)
  /-- For a power whose tree will be its own. -/
  | unsigned
  /-- For the base of a power. -/
  | base
  /-- For the exponent of a power. -/
  | exponent (base : Subtree)
  /-- For what stands in parentheses; `position` is that of the opening one. -/
  | inside (position : Nat)
  /-- For the inner rule of a level. -/
  | level
deriving DecidableEq

/-- The trees that are held at a point. -/
def Point.held : Point → List Subtree
  | .next _ _ left => [left]
  | .exponent tree => [tree]
  | _ => []

/-- **An activation** that waits for the rule it has called. -/
structure Activation where
  /-- The counters when it was entered. -/
  entered : Cursor
  point : Point
deriving DecidableEq

/-- What happens next: a rule is called, or one that was entered with certain counters returns. -/
inductive Control where
  | calls (call : Call)
  | returns (entered : Cursor) (result : Except EvalError Subtree)

/-- The tree that is being returned, if any. -/
def Control.held : Control → List Subtree
  | .returns _ (.ok tree) => [tree]
  | _ => []

/-- **The parser at work.** -/
structure Machine where
  cursor : Cursor
  /-- The activations that wait, the innermost first. -/
  stack : List Activation
  control : Control

/-- Whether an activation keeps a level open. -/
def Activation.isLevel : Activation → Bool
  | ⟨_, .level⟩ => true
  | _ => false

namespace Machine

/-- How many levels are open. -/
def openLevels (m : Machine) : Nat := m.stack.countP Activation.isLevel

/-- **All trees of a machine**: the one that is returned and those that activations hold. -/
def trees (m : Machine) : List Subtree := m.control.held ++ m.stack.flatMap (·.point.held)

/-! ## Steps -/

section Steps

variable (highest levels textEnd : Nat) (tokens : List Lexeme)

/-- The position of the next token; `textEnd` is the length of the text. -/
def position (c : Cursor) : Nat := (tokens[c.current]?).elim textEnd Lexeme.position

/-- A tree that is not higher than `highest`. -/
def checkedHeight (c : Cursor) (tree : Subtree) : Except EvalError Subtree :=
  if highest < tree.height then .error (.malformed .tooDeep (position textEnd tokens c))
  else .ok tree

/-- Goes on with a chain when `left` has been read: if an operator follows, it is taken and the next
operand is read. -/
def goOn (c : Cursor) (stack : List Activation) (entered : Cursor) (kind : ChainKind)
    (left : Subtree) : Machine :=
  match (tokens[c.current]?).bind (kind.op? ·.token) with
  | some op => ⟨c.advance, ⟨entered, .next kind op left⟩ :: stack, .calls kind.operand⟩
  | none => ⟨c, stack, .returns entered (.ok left)⟩

/-- **Calls a rule.** -/
def enter (c : Cursor) (stack : List Activation) : Call → Machine
  | .chain kind => ⟨c, ⟨c, .first kind⟩ :: stack, .calls kind.operand⟩
  | .signed =>
    match (tokens[c.current]?).bind (sign? ·.token) with
    | some op => ⟨c.advance, ⟨c, .operand op⟩ :: stack, .calls (.nested .signed)⟩
    | none => ⟨c, ⟨c, .unsigned⟩ :: stack, .calls .power⟩
  | .power => ⟨c, ⟨c, .base⟩ :: stack, .calls .primary⟩
  | .primary =>
    match tokens[c.current]? with
    | none => ⟨c, stack, .returns c (.error (.malformed .unexpectedEnd textEnd))⟩
    | some next =>
      match next.token with
      | .number value => ⟨c.advance, stack, .returns c (.ok ⟨.number value, 1⟩)⟩
      | .leftParen =>
        ⟨c.advance, ⟨c, .inside next.position⟩ :: stack, .calls (.nested (.chain .sum))⟩
      | _ => ⟨c, stack, .returns c (.error next.refused)⟩
  | .nested inner =>
    if levels ≤ c.nesting then
      ⟨c, stack, .returns c (.error (.malformed .tooDeep (position textEnd tokens c)))⟩
    else ⟨c.openLevel, ⟨c, .level⟩ :: stack, .calls inner⟩

/-- **Goes on with an activation** when the rule it waits for has returned.  A level is closed
whatever the result is; everything else hands a failure on. -/
def resume (c : Cursor) (stack : List Activation) (a : Activation) :
    Except EvalError Subtree → Machine
  | .error err =>
    ⟨if a.isLevel then c.closeLevel else c, stack, .returns a.entered (.error err)⟩
  | .ok tree =>
    match a.point with
    | .first kind => goOn tokens c stack a.entered kind tree
    | .next kind op left =>
      match checkedHeight highest textEnd tokens c (join op left tree) with
      | .error err => ⟨c, stack, .returns a.entered (.error err)⟩
      | .ok joined => goOn tokens c stack a.entered kind joined
    | .operand op =>
      ⟨c, stack, .returns a.entered
        (checkedHeight highest textEnd tokens c ⟨.unary op tree.expr, tree.height + 1⟩)⟩
    | .unsigned => ⟨c, stack, .returns a.entered (.ok tree)⟩
    | .base =>
      if (tokens[c.current]?).map Lexeme.token = some .doubleStar then
        ⟨c.advance, ⟨a.entered, .exponent tree⟩ :: stack, .calls (.nested .signed)⟩
      else ⟨c, stack, .returns a.entered (.ok tree)⟩
    | .exponent base =>
      ⟨c, stack, .returns a.entered
        (checkedHeight highest textEnd tokens c (join .power base tree))⟩
    | .inside position =>
      match tokens[c.current]? with
      | none =>
        ⟨c, stack, .returns a.entered (.error (.malformed (.neverClosed position) textEnd))⟩
      | some close =>
        if close.token = .rightParen then ⟨c.advance, stack, .returns a.entered (.ok tree)⟩
        else ⟨c, stack, .returns a.entered (.error close.refused)⟩
    | .level => ⟨c.closeLevel, stack, .returns a.entered (.ok tree)⟩

/-- **One step**; there is none when the last activation has returned. -/
def step : Machine → Option Machine
  | ⟨c, stack, .calls call⟩ => some (enter levels textEnd tokens c stack call)
  | ⟨c, a :: stack, .returns _ result⟩ => some (resume highest textEnd tokens c stack a result)
  | ⟨_, [], .returns _ _⟩ => none

/-- **A run** of any number of steps. -/
def Runs : Machine → Machine → Prop :=
  Relation.ReflTransGen fun m next => step highest levels textEnd tokens m = some next

end Steps

/-- The machine at the start, where a sum is called. -/
def start : Machine := ⟨⟨0, 0⟩, [], .calls (.chain .sum)⟩

/-- **The answer of a machine that has halted**; nothing may be left over behind a tree. -/
def answer? (tokens : List Lexeme) : Machine → Option (Except EvalError Expr)
  | ⟨c, [], .returns _ (.ok tree)⟩ =>
    match tokens[c.current]? with
    | some next => some (.error next.refused)
    | none => some (.ok tree.expr)
  | ⟨_, [], .returns _ (.error err)⟩ => some (.error err)
  | _ => none

/-! ## What every step keeps -/

end Machine

/-- A tree that is recorded with its true height. -/
def Subtree.IsMeasured (tree : Subtree) : Prop := tree.height = tree.expr.height

/-- **The activations that wait for a rule** which was entered with the counters `c`: each was
entered no later than the one above it, and the levels counted are the levels kept open. -/
inductive Waiting : Cursor → List Activation → Prop where
  | bottom {c : Cursor} : c.nesting = 0 → Waiting c []
  | above {c : Cursor} {a : Activation} {stack : List Activation} :
    a.entered.current ≤ c.current → c.nesting = a.entered.nesting + a.isLevel.toNat →
    (∀ tree ∈ a.point.held, tree.IsMeasured) → Waiting a.entered stack → Waiting c (a :: stack)

/-- **What a rule has done when it returns**: it has closed every level that it has opened, and if
it returns a tree, then it has taken a token, and the tree has its true height. -/
structure Returned (entered c : Cursor) (result : Except EvalError Subtree) : Prop where
  nesting_eq : c.nesting = entered.nesting
  advanced {tree : Subtree} : result = .ok tree → entered.current < c.current
  measured {tree : Subtree} : result = .ok tree → tree.IsMeasured

theorem Returned.failure {entered c : Cursor} {err : EvalError}
    (hnesting : c.nesting = entered.nesting) : Returned entered c (.error err) :=
  ⟨hnesting, nofun, nofun⟩

theorem Returned.tree {entered c : Cursor} {tree : Subtree} (hnesting : c.nesting = entered.nesting)
    (hadvanced : entered.current < c.current) (htree : tree.IsMeasured) :
    Returned entered c (.ok tree) := by
  refine ⟨hnesting, fun _ => hadvanced, ?_⟩
  rintro _ ⟨⟩
  exact htree

theorem Waiting.isMeasured {c : Cursor} {stack : List Activation} (h : Waiting c stack) :
    ∀ tree ∈ stack.flatMap (·.point.held), tree.IsMeasured := by
  induction h with
  | bottom => nofun
  | above _ _ hheld _ ih =>
    intro tree htree
    rw [List.flatMap_cons] at htree
    rcases List.mem_append.1 htree with htree | htree
    · exact hheld tree htree
    · exact ih tree htree

/-- As many levels are counted as are open. -/
theorem Waiting.nesting_eq {c : Cursor} {stack : List Activation} (h : Waiting c stack) :
    c.nesting = stack.countP Activation.isLevel := by
  induction h with
  | bottom hzero => simpa using hzero
  | @above c a stack _ hnesting _ _ ih =>
    rw [hnesting, ih, List.countP_cons]
    cases a.isLevel <;> rfl

namespace Machine

variable {highest levels textEnd : Nat} {tokens : List Lexeme}

/-- **What holds at every moment of a run.** -/
inductive Sound (levels : Nat) (tokens : List Lexeme) : Machine → Prop where
  | calling {c : Cursor} {stack : List Activation} {call : Call} :
    c.current ≤ tokens.length → c.nesting ≤ levels → Waiting c stack →
    Sound levels tokens ⟨c, stack, .calls call⟩
  | returning {c entered : Cursor} {stack : List Activation} {result : Except EvalError Subtree} :
    c.current ≤ tokens.length → c.nesting ≤ levels → Waiting entered stack →
    Returned entered c result → Sound levels tokens ⟨c, stack, .returns entered result⟩

theorem isMeasured_of_checkedHeight {c : Cursor} {tree checked : Subtree} (htree : tree.IsMeasured)
    (h : checkedHeight highest textEnd tokens c tree = .ok checked) : checked.IsMeasured := by
  unfold checkedHeight at h
  split at h
  · cases h
  · cases h
    exact htree

theorem returned_checkedHeight {c entered : Cursor} {tree : Subtree}
    (hnesting : c.nesting = entered.nesting) (hadvanced : entered.current < c.current)
    (htree : tree.IsMeasured) :
    Returned entered c (checkedHeight highest textEnd tokens c tree) where
  nesting_eq := hnesting
  advanced _ := hadvanced
  measured := isMeasured_of_checkedHeight htree

theorem isMeasured_join (op : BinaryOp) {left right : Subtree} (hleft : left.IsMeasured)
    (hright : right.IsMeasured) : (join op left right).IsMeasured := by
  rw [Subtree.IsMeasured] at hleft hright
  simp only [Subtree.IsMeasured, join, Expr.height, hleft, hright]

theorem isMeasured_unary (op : UnaryOp) {tree : Subtree} (h : tree.IsMeasured) :
    Subtree.IsMeasured ⟨.unary op tree.expr, tree.height + 1⟩ := by
  rw [Subtree.IsMeasured] at h
  simp only [Subtree.IsMeasured, Expr.height, h]

theorem advance_le {c : Cursor} {α : Type} {f : Lexeme → Option α} {a : α}
    (h : (tokens[c.current]?).bind f = some a) : c.advance.current ≤ tokens.length := by
  obtain ⟨next, hnext, -⟩ := Option.bind_eq_some_iff.1 h
  exact (List.getElem?_eq_some_iff.1 hnext).1

section Sound

variable {c entered : Cursor} {stack : List Activation}

theorem Sound.goOn {kind : ChainKind} {left : Subtree} (hcurrent : c.current ≤ tokens.length)
    (hnesting : c.nesting ≤ levels) (hentered : c.nesting = entered.nesting)
    (hadvanced : entered.current < c.current) (hleft : left.IsMeasured)
    (hwaiting : Waiting entered stack) :
    Sound levels tokens (goOn tokens c stack entered kind left) := by
  rw [Machine.goOn]
  split
  case h_1 op hnext =>
    have hbefore : entered.current ≤ c.advance.current :=
      Nat.le_of_lt (Nat.lt_succ_of_lt hadvanced)
    exact .calling (advance_le hnext) hnesting
      (.above hbefore hentered (List.forall_mem_singleton.2 hleft) hwaiting)
  case h_2 =>
    exact .returning hcurrent hnesting hwaiting (.tree hentered hadvanced hleft)

theorem Sound.enter {call : Call} (hcurrent : c.current ≤ tokens.length)
    (hnesting : c.nesting ≤ levels) (hwaiting : Waiting c stack) :
    Sound levels tokens (enter levels textEnd tokens c stack call) := by
  -- a rule that fails where it was called
  have hfailed : ∀ err, Sound levels tokens ⟨c, stack, .returns c (.error err)⟩ := fun err =>
    .returning hcurrent hnesting hwaiting (.failure rfl)
  cases call with
  | chain kind => exact .calling hcurrent hnesting (.above (Nat.le_refl _) rfl nofun hwaiting)
  | power => exact .calling hcurrent hnesting (.above (Nat.le_refl _) rfl nofun hwaiting)
  | signed =>
    rw [Machine.enter]
    split
    case h_1 op hnext =>
      exact .calling (advance_le hnext) hnesting (.above (Nat.le_succ _) rfl nofun hwaiting)
    case h_2 => exact .calling hcurrent hnesting (.above (Nat.le_refl _) rfl nofun hwaiting)
  | primary =>
    rw [Machine.enter]
    split
    case h_1 => exact hfailed _
    case h_2 next hnext =>
      have hadvance : c.advance.current ≤ tokens.length := (List.getElem?_eq_some_iff.1 hnext).1
      split
      case h_1 value _ =>
        exact .returning hadvance hnesting hwaiting (.tree rfl (Nat.lt_succ_self _) rfl)
      case h_2 => exact .calling hadvance hnesting (.above (Nat.le_succ _) rfl nofun hwaiting)
      case h_3 => exact hfailed _
  | nested inner =>
    rw [Machine.enter]
    split
    case isTrue => exact hfailed _
    case isFalse hroom =>
      exact .calling hcurrent (Nat.lt_of_not_le hroom) (.above (Nat.le_refl _) rfl nofun hwaiting)

/-- A failure is handed on, and a level is closed on the way. -/
theorem Sound.resume_error {a : Activation} {err : EvalError} (hcurrent : c.current ≤ tokens.length)
    (hnesting : c.nesting ≤ levels) (hlevel : c.nesting = a.entered.nesting + a.isLevel.toNat)
    (hwaiting : Waiting a.entered stack) :
    Sound levels tokens (resume highest textEnd tokens c stack a (.error err)) := by
  rw [resume]
  cases hopen : a.isLevel with
  | true =>
    rw [hopen, Bool.toNat_true] at hlevel
    exact .returning hcurrent (Nat.le_trans (Nat.sub_le _ _) hnesting) hwaiting
      (.failure (Nat.sub_eq_of_eq_add hlevel))
  | false =>
    rw [hopen] at hlevel
    exact .returning hcurrent hnesting hwaiting (.failure hlevel)

/-- An activation goes on with a tree, and may return one. -/
theorem Sound.resume_ok {a : Activation} {tree : Subtree} (hcurrent : c.current ≤ tokens.length)
    (hnesting : c.nesting ≤ levels) (hlevel : c.nesting = a.entered.nesting + a.isLevel.toNat)
    (hadvanced : a.entered.current < c.current) (hheld : ∀ tree ∈ a.point.held, tree.IsMeasured)
    (htree : tree.IsMeasured) (hwaiting : Waiting a.entered stack) :
    Sound levels tokens (resume highest textEnd tokens c stack a (.ok tree)) := by
  obtain ⟨entered, point⟩ := a
  have hbefore : entered.current ≤ c.advance.current := Nat.le_of_lt (Nat.lt_succ_of_lt hadvanced)
  -- the result of a check, and a tree that is returned as it is
  have hchecks : ∀ {joined : Subtree}, c.nesting = entered.nesting → joined.IsMeasured →
      Sound levels tokens
        ⟨c, stack, .returns entered (checkedHeight highest textEnd tokens c joined)⟩ :=
    fun hentered hjoined =>
      .returning hcurrent hnesting hwaiting (returned_checkedHeight hentered hadvanced hjoined)
  have hreturns : c.nesting = entered.nesting →
      Sound levels tokens ⟨c, stack, .returns entered (.ok tree)⟩ := fun hentered =>
    .returning hcurrent hnesting hwaiting (.tree hentered hadvanced htree)
  cases point with
  | first kind => exact Sound.goOn hcurrent hnesting hlevel hadvanced htree hwaiting
  | next kind op left =>
    have hjoined := isMeasured_join op (List.forall_mem_singleton.1 hheld) htree
    simp only [resume]
    split
    case h_1 => exact .returning hcurrent hnesting hwaiting (.failure hlevel)
    case h_2 joined hchecked =>
      exact Sound.goOn hcurrent hnesting hlevel hadvanced
        (isMeasured_of_checkedHeight hjoined hchecked) hwaiting
  | operand op => exact hchecks hlevel (isMeasured_unary op htree)
  | unsigned => exact hreturns hlevel
  | base =>
    simp only [resume]
    split
    case isTrue hpower =>
      obtain ⟨next, hnext, -⟩ := Option.map_eq_some_iff.1 hpower
      exact .calling (List.getElem?_eq_some_iff.1 hnext).1 hnesting
        (.above hbefore hlevel (List.forall_mem_singleton.2 htree) hwaiting)
    case isFalse => exact hreturns hlevel
  | exponent lower =>
    exact hchecks hlevel (isMeasured_join .power (List.forall_mem_singleton.1 hheld) htree)
  | inside position =>
    have hfailed : ∀ err, Sound levels tokens ⟨c, stack, .returns entered (.error err)⟩ :=
      fun err => .returning hcurrent hnesting hwaiting (.failure hlevel)
    simp only [resume]
    split
    case h_1 => exact hfailed _
    case h_2 close hclose =>
      split
      case isTrue =>
        exact .returning (List.getElem?_eq_some_iff.1 hclose).1 hnesting hwaiting
          (.tree hlevel (Nat.lt_succ_of_lt hadvanced) htree)
      case isFalse => exact hfailed _
  | level =>
    exact .returning hcurrent (Nat.le_trans (Nat.sub_le _ _) hnesting) hwaiting
      (.tree (Nat.sub_eq_of_eq_add hlevel) hadvanced htree)

/-- **Every step keeps it.** -/
theorem Sound.step {m next : Machine} (h : Sound levels tokens m)
    (hstep : step highest levels textEnd tokens m = some next) : Sound levels tokens next := by
  cases h with
  | calling hcurrent hnesting hwaiting =>
    cases hstep
    exact Sound.enter hcurrent hnesting hwaiting
  | @returning c entered stack result hcurrent hnesting hwaiting hreturned =>
    cases hwaiting with
    | bottom => cases hstep
    | above hentered hlevel hheld hbelow =>
      cases hstep
      rw [← hreturned.nesting_eq] at hlevel
      cases result with
      | error err => exact Sound.resume_error hcurrent hnesting hlevel hbelow
      | ok tree =>
        exact Sound.resume_ok hcurrent hnesting hlevel
          (Nat.lt_of_le_of_lt hentered (hreturned.advanced rfl)) hheld (hreturned.measured rfl)
          hbelow

theorem Sound.current_le {m : Machine} (h : Sound levels tokens m) :
    m.cursor.current ≤ tokens.length := by
  cases h with
  | calling hcurrent | returning hcurrent => exact hcurrent

/-- **The levels counted are those that are open**, and there are not too many. -/
theorem Sound.openLevels_eq {m : Machine} (h : Sound levels tokens m) :
    m.openLevels = m.cursor.nesting ∧ m.openLevels ≤ levels := by
  have heq : m.openLevels = m.cursor.nesting := by
    cases h with
    | calling _ _ hwaiting => exact hwaiting.nesting_eq.symm
    | returning _ _ hwaiting hreturned =>
      exact hwaiting.nesting_eq.symm.trans hreturned.nesting_eq.symm
  refine ⟨heq, heq ▸ ?_⟩
  cases h with
  | calling _ hnesting | returning _ hnesting => exact hnesting

theorem Sound.returned {m : Machine} {entered : Cursor} {result : Except EvalError Subtree}
    (h : Sound levels tokens m) (hreturns : m.control = .returns entered result) :
    Returned entered m.cursor result := by
  cases h with
  | calling => cases hreturns
  | returning _ _ _ hreturned =>
    cases hreturns
    exact hreturned

/-- **All trees have their true heights.** -/
theorem Sound.isMeasured {m : Machine} (h : Sound levels tokens m) :
    ∀ tree ∈ m.trees, tree.IsMeasured := by
  cases h with
  | calling _ _ hwaiting => exact hwaiting.isMeasured
  | @returning c entered stack result _ _ hwaiting hreturned =>
    intro tree htree
    rcases List.mem_append.1 htree with htree | htree
    · cases result with
      | error => cases htree
      | ok read =>
        obtain rfl := List.mem_singleton.1 htree
        exact hreturned.measured rfl
    · exact hwaiting.isMeasured tree htree

theorem Sound.start : Sound levels tokens start :=
  .calling (Nat.zero_le _) (Nat.zero_le _) (.bottom rfl)

/-- **It holds throughout every run.** -/
theorem Sound.of_runs {m : Machine} (h : Runs highest levels textEnd tokens Machine.start m) :
    Sound levels tokens m := by
  induction h with
  | refl => exact Sound.start
  | tail _ hstep ih => exact ih.step hstep

end Sound

end Machine

end Calculator.Parser
