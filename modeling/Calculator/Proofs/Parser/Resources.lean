import Calculator.Expr.Eval
import Calculator.Proofs.Parser.Machine

/-!
# What parsing costs

The machine with its counters does what the rules say: called anywhere, with any activations
waiting, it comes to return what the rule gives (`Carries`).  This is shown rule by rule along the
ways through each of them, then for all levels by induction on the levels that are left
(`signedAt_carries`).  So the machine halts on all tokens, with the result of the parser, and what
holds at every moment of its run is what parsing costs (`Machine.halts_within_limits`).
-/

namespace Calculator

namespace Parser

namespace Machine

variable {highest levels textEnd n : Nat} {tokens : List Lexeme}

/-! ## The tokens that are left -/

theorem getElem?_of_drop_eq_cons {current : Nat} {next : Lexeme} {rest : List Lexeme}
    (h : tokens.drop current = next :: rest) :
    tokens[current]? = some next ∧ tokens.drop (current + 1) = rest := by
  constructor
  · rw [← List.head?_drop, h]
    rfl
  · rw [← List.tail_drop, h]
    rfl

theorem getElem?_of_drop_eq_nil {current : Nat} (h : tokens.drop current = []) :
    tokens[current]? = none := by
  rw [← List.head?_drop, h]
  rfl

theorem position_eq (c : Cursor) :
    position textEnd tokens c = positionOf textEnd (tokens.drop c.current) := by
  rw [position, ← List.head?_drop]
  cases tokens.drop c.current <;> rfl

/-! ## Coming to return -/

variable (highest levels textEnd tokens) in
/-- **From `m` on the machine comes to return this outcome**, to the activations of `stack`, from a
rule that was entered when `first` tokens had been taken and `n` levels were open; the tokens it has
left are those of the outcome. -/
def Delivers (m : Machine) (stack : List Activation) (first n : Nat) (outcome : Outcome) : Prop :=
  ∃ current, (∀ {tree rest}, outcome = .ok (tree, rest) → tokens.drop current = rest) ∧
    Runs highest levels textEnd tokens m
      ⟨⟨current, n⟩, stack, .returns ⟨first, n⟩ (outcome.map Prod.fst)⟩

variable (highest levels textEnd tokens) in
/-- **A call that does what a rule says** when `n` levels are open. -/
def Carries (call : Call) (n : Nat) (rule : Rule) : Prop :=
  ∀ (current : Nat) (stack : List Activation),
    Delivers highest levels textEnd tokens ⟨⟨current, n⟩, stack, .calls call⟩ stack current n
      (rule (tokens.drop current))

section Delivers

variable {m : Machine} {stack : List Activation} {first current : Nat} {outcome : Outcome}

theorem Delivers.tree {tree : Subtree} {rest : List Lexeme}
    (hrest : tokens.drop current = rest) :
    Delivers highest levels textEnd tokens
      ⟨⟨current, n⟩, stack, .returns ⟨first, n⟩ (.ok tree)⟩ stack first n (.ok (tree, rest)) := by
  refine ⟨current, ?_, .refl⟩
  rintro _ _ ⟨⟩
  exact hrest

theorem Delivers.failure (current : Nat) (err : EvalError) :
    Delivers highest levels textEnd tokens
      ⟨⟨current, n⟩, stack, .returns ⟨first, n⟩ (.error err)⟩ stack first n (.error err) :=
  ⟨current, nofun, .refl⟩

theorem Delivers.checked {tree : Subtree}
    (h : withinHeight highest textEnd tree (tokens.drop current) = outcome) :
    Delivers highest levels textEnd tokens
      ⟨⟨current, n⟩, stack, .returns ⟨first, n⟩
        (checkedHeight highest textEnd tokens ⟨current, n⟩ tree)⟩ stack first n outcome := by
  have hchecked :
      checkedHeight highest textEnd tokens ⟨current, n⟩ tree = outcome.map Prod.fst := by
    rw [← h, checkedHeight, position_eq, withinHeight]
    split <;> rfl
  rw [hchecked]
  refine ⟨current, ?_, .refl⟩
  rintro _ _ rfl
  exact (Prod.mk.inj (withinHeight_eq_ok_iff.1 h).2).2.symm

theorem Delivers.of_enter {c : Cursor} {waiting : List Activation} {call : Call}
    (h : Delivers highest levels textEnd tokens (enter levels textEnd tokens c waiting call) stack
      first n outcome) :
    Delivers highest levels textEnd tokens ⟨c, waiting, .calls call⟩ stack first n outcome := by
  obtain ⟨current, hrest, hruns⟩ := h
  exact ⟨current, hrest, .head rfl hruns⟩

/-- **A call with an activation that waits for it**: what is delivered to the activation is what it
goes on with. -/
theorem Delivers.andThen {point : Point} {before k : Nat} {final : Outcome}
    (h : Delivers highest levels textEnd tokens m (⟨⟨first, n⟩, point⟩ :: stack) before k outcome)
    (hresume : ∀ current, (∀ {tree rest}, outcome = .ok (tree, rest) → tokens.drop current = rest) →
      Delivers highest levels textEnd tokens
        (resume highest textEnd tokens ⟨current, k⟩ stack ⟨⟨first, n⟩, point⟩
          (outcome.map Prod.fst)) stack first n final) :
    Delivers highest levels textEnd tokens m stack first n final := by
  obtain ⟨current, hrest, hruns⟩ := h
  obtain ⟨last, hfinal, hafter⟩ := hresume current hrest
  exact ⟨last, hfinal, hruns.trans (.head rfl hafter)⟩

theorem Carries.read {call : Call} {rule : Rule} {rest : List Lexeme}
    (h : Carries highest levels textEnd tokens call n rule) (hrest : tokens.drop current = rest)
    (hread : rule rest = outcome) :
    Delivers highest levels textEnd tokens ⟨⟨current, n⟩, stack, .calls call⟩ stack current n
      outcome := by
  rw [← hread, ← hrest]
  exact h current stack

end Delivers

/-! ## The rules -/

theorem nested_carries_tooDeep (hfull : levels ≤ n) (inner : Call) :
    Carries highest levels textEnd tokens (.nested inner) n (tooDeep textEnd) := by
  intro current stack
  refine .of_enter ?_
  rw [enter, if_pos hfull, position_eq]
  exact .failure current _

/-- A level is opened for the inner rule, and closed again. -/
theorem nested_carries {inner : Call} {rule : Rule} (hroom : n < levels)
    (hinner : Carries highest levels textEnd tokens inner (n + 1) rule) :
    Carries highest levels textEnd tokens (.nested inner) n rule := by
  intro current stack
  refine .of_enter ?_
  rw [enter, if_neg (Nat.not_le_of_lt hroom)]
  refine (hinner current (⟨⟨current, n⟩, .level⟩ :: stack)).andThen fun last hrest => ?_
  generalize rule (tokens.drop current) = outcome at hrest ⊢
  cases outcome with
  | error err => exact .failure last err
  | ok read => exact .tree (hrest rfl)

theorem primary_carries {sum : Rule}
    (hsum : Carries highest levels textEnd tokens (.nested (.chain .sum)) n sum) :
    Carries highest levels textEnd tokens .primary n (primary textEnd sum) := by
  intro current stack
  refine .of_enter ?_
  have hreads := primaryReads textEnd sum (tokens.drop current)
  generalize primary textEnd sum (tokens.drop current) = outcome at hreads ⊢
  generalize hfront : tokens.drop current = front at hreads
  cases hreads with
  | number hnext =>
    obtain ⟨hpeek, hrest⟩ := getElem?_of_drop_eq_cons hfront
    simp only [enter, hpeek, hnext]
    exact .tree hrest
  | empty =>
    simp only [enter, getElem?_of_drop_eq_nil hfront]
    exact .failure current _
  | refused hnumber hparen =>
    obtain ⟨hpeek, -⟩ := getElem?_of_drop_eq_cons hfront
    simp only [enter, hpeek]
    exact .failure current _
  | insideFailed hnext hinside =>
    obtain ⟨hpeek, hbehind⟩ := getElem?_of_drop_eq_cons hfront
    simp only [enter, hpeek, hnext]
    exact (hsum.read hbehind hinside).andThen fun last _ => .failure last _
  | neverClosed hnext hinside =>
    obtain ⟨hpeek, hbehind⟩ := getElem?_of_drop_eq_cons hfront
    simp only [enter, hpeek, hnext]
    refine (hsum.read hbehind hinside).andThen fun last hrest => ?_
    simp only [resume, Except.map, getElem?_of_drop_eq_nil (hrest rfl)]
    exact .failure last _
  | closed hnext hinside hclose =>
    obtain ⟨hpeek, hbehind⟩ := getElem?_of_drop_eq_cons hfront
    simp only [enter, hpeek, hnext]
    refine (hsum.read hbehind hinside).andThen fun last hrest => ?_
    obtain ⟨hpeek, hbehind⟩ := getElem?_of_drop_eq_cons (hrest rfl)
    simp only [resume, Except.map, hpeek, hclose, if_true]
    exact .tree hbehind
  | notClosed hnext hinside hclose =>
    obtain ⟨hpeek, hbehind⟩ := getElem?_of_drop_eq_cons hfront
    simp only [enter, hpeek, hnext]
    refine (hsum.read hbehind hinside).andThen fun last hrest => ?_
    obtain ⟨hpeek, -⟩ := getElem?_of_drop_eq_cons (hrest rfl)
    simp only [resume, Except.map, hpeek, hclose, if_false]
    exact .failure last _

theorem power_carries {signed sum : Rule}
    (hsigned : Carries highest levels textEnd tokens (.nested .signed) n signed)
    (hsum : Carries highest levels textEnd tokens (.nested (.chain .sum)) n sum) :
    Carries highest levels textEnd tokens .power n (power highest textEnd signed sum) := by
  intro current stack
  refine .of_enter ?_
  rw [enter]
  have hreads := powerReads highest textEnd signed sum (tokens.drop current)
  generalize power highest textEnd signed sum (tokens.drop current) = outcome at hreads ⊢
  have hprimary := primary_carries hsum current (⟨⟨current, n⟩, .base⟩ :: stack)
  cases hreads with
  | baseFailed hbase =>
    rw [hbase] at hprimary
    exact hprimary.andThen fun last _ => .failure last _
  | alone hbase hstops =>
    rw [hbase] at hprimary
    refine hprimary.andThen fun last hrest => ?_
    have hnext : (tokens[last]?).map Lexeme.token ≠ some .doubleStar := by
      rw [← List.head?_drop, hrest rfl]
      intro hstar
      obtain ⟨next, hmem, hnext⟩ := Option.map_eq_some_iff.1 hstar
      cases hstops next hmem .power hnext
    simp only [Except.map, resume, hnext, if_false]
    exact .tree (hrest rfl)
  | exponentFailed hbase hnext hexponent =>
    rw [hbase] at hprimary
    refine hprimary.andThen fun last hrest => ?_
    obtain ⟨hpeek, hbehind⟩ := getElem?_of_drop_eq_cons (hrest rfl)
    simp only [Except.map, resume, hpeek, Option.map_some, hnext, if_true]
    exact (hsigned.read hbehind hexponent).andThen fun final _ => .failure final _
  | raised hbase hnext hexponent hwithin =>
    rw [hbase] at hprimary
    refine hprimary.andThen fun last hrest => ?_
    obtain ⟨hpeek, hbehind⟩ := getElem?_of_drop_eq_cons (hrest rfl)
    simp only [Except.map, resume, hpeek, Option.map_some, hnext, if_true]
    refine (hsigned.read hbehind hexponent).andThen fun final hfinal => ?_
    rw [← hfinal rfl] at hwithin
    exact .checked hwithin

theorem signed_carries {inner sum : Rule}
    (hinner : Carries highest levels textEnd tokens (.nested .signed) n inner)
    (hsum : Carries highest levels textEnd tokens (.nested (.chain .sum)) n sum) :
    Carries highest levels textEnd tokens .signed n (signed highest textEnd inner sum) := by
  intro current stack
  refine .of_enter ?_
  have hreads := signedReads highest textEnd inner sum (tokens.drop current)
  generalize signed highest textEnd inner sum (tokens.drop current) = outcome at hreads ⊢
  generalize hfront : tokens.drop current = front at hreads
  cases hreads with
  | unsigned hfirst hpower =>
    have hnone : (tokens[current]?).bind (sign? ·.token) = none := by
      rw [← List.head?_drop, hfront]
      refine Option.eq_none_iff_forall_ne_some.2 fun op hop => ?_
      obtain ⟨next, hmem, hnext⟩ := Option.bind_eq_some_iff.1 hop
      exact hfirst next hmem op (sign?_eq_some_iff.1 hnext)
    simp only [enter, hnone]
    refine ((power_carries hinner hsum).read hfront hpower).andThen fun last hrest => ?_
    cases outcome with
    | error err => exact .failure last err
    | ok read => exact .tree (hrest rfl)
  | operandFailed htoken hoperand =>
    obtain ⟨hpeek, hbehind⟩ := getElem?_of_drop_eq_cons hfront
    simp only [enter, hpeek, Option.bind_some, sign?_eq_some_iff.2 htoken]
    exact (hinner.read hbehind hoperand).andThen fun last _ => .failure last _
  | sign htoken hoperand hwithin =>
    obtain ⟨hpeek, hbehind⟩ := getElem?_of_drop_eq_cons hfront
    simp only [enter, hpeek, Option.bind_some, sign?_eq_some_iff.2 htoken]
    refine (hinner.read hbehind hoperand).andThen fun last hrest => ?_
    rw [← hrest rfl] at hwithin
    exact .checked hwithin

section Chains

variable {kind : ChainKind} {operand : Rule}

/-- The loop of a chain, by induction on the tokens that are left: each operator takes one. -/
theorem goOn_delivers (hoperand : Carries highest levels textEnd tokens kind.operand n operand)
    (hshrinks : Shrinks operand) {current first : Nat} {stack : List Activation} (left : Subtree)
    (rest : List Lexeme) (hrest : tokens.drop current = rest) :
    Delivers highest levels textEnd tokens
      (goOn tokens ⟨current, n⟩ stack ⟨first, n⟩ kind left) stack first n
      (chainRest highest textEnd kind.op? operand left rest) := by
  induction hlength : rest.length using Nat.strongRecOn generalizing rest left current with
  | ind length ih =>
    have hreads := (chainRest_eq_iff hshrinks).1
      (Eq.refl (chainRest highest textEnd kind.op? operand left rest))
    generalize chainRest highest textEnd kind.op? operand left rest = outcome at hreads ⊢
    cases hreads with
    | stop hnext =>
      have hnone : (tokens[current]?).bind (kind.op? ·.token) = none := by
        rw [← List.head?_drop, hrest, Option.bind_eq_none_iff]
        exact hnext
      simp only [goOn, hnone]
      exact .tree hrest
    | operandFailed hnext hright =>
      obtain ⟨hpeek, hbehind⟩ := getElem?_of_drop_eq_cons hrest
      simp only [goOn, hpeek, Option.bind_some, hnext]
      exact (hoperand.read hbehind hright).andThen fun last _ => .failure last _
    | tooHigh hnext hright hlt =>
      obtain ⟨hpeek, hbehind⟩ := getElem?_of_drop_eq_cons hrest
      simp only [goOn, hpeek, Option.bind_some, hnext]
      refine (hoperand.read hbehind hright).andThen fun last hlast => ?_
      simp only [resume, Except.map, checkedHeight, hlt, if_true, position_eq, hlast rfl]
      exact .failure last _
    | link hnext hright hle hagain =>
      obtain ⟨hpeek, hbehind⟩ := getElem?_of_drop_eq_cons hrest
      simp only [goOn, hpeek, Option.bind_some, hnext]
      refine (hoperand.read hbehind hright).andThen fun last hlast => ?_
      simp only [resume, Except.map, checkedHeight, Nat.not_lt_of_le hle, if_false]
      rw [← hagain]
      refine ih _ ?_ _ _ (hlast rfl) rfl
      rw [← hlength]
      exact Nat.lt_succ_of_le (hshrinks hright)

theorem chain_carries (hoperand : Carries highest levels textEnd tokens kind.operand n operand)
    (hshrinks : Shrinks operand) :
    Carries highest levels textEnd tokens (.chain kind) n
      (chain highest textEnd kind.op? operand) := by
  intro current stack
  refine .of_enter ?_
  have hfirst := hoperand current (⟨⟨current, n⟩, .first kind⟩ :: stack)
  cases hread : operand (tokens.drop current) with
  | error err =>
    rw [hread] at hfirst
    rw [chain_of_error hread]
    exact hfirst.andThen fun last _ => .failure last _
  | ok read =>
    rw [hread] at hfirst
    rw [chain_of_ok hread]
    exact hfirst.andThen fun last hrest => goOn_delivers hoperand hshrinks _ _ (hrest rfl)

end Chains

/-! ## All levels -/

theorem sum_carries {signed : Rule}
    (hsigned : Carries highest levels textEnd tokens .signed n signed)
    (hexact : ∃ k, Exact highest k .signed signed) :
    Carries highest levels textEnd tokens (.chain .sum) n (sumOf highest textEnd signed) := by
  obtain ⟨k, hexact⟩ := hexact
  have hproduct : Carries highest levels textEnd tokens (.chain .product) n
      (chain highest textEnd productOp? signed) := chain_carries hsigned hexact.shrinks
  exact chain_carries hproduct (product_chainsOf.chain_exact hexact).shrinks

/-- **The rules of every level**: as many levels are open as the rule has not left. -/
theorem signedAt_carries (hhighest : 1 ≤ highest) {left : Nat} (hlevels : n + left = levels) :
    Carries highest levels textEnd tokens .signed n (signedAt highest textEnd left) := by
  induction left generalizing n with
  | zero =>
    have hfull : levels ≤ n := Nat.le_of_eq hlevels.symm
    exact signed_carries (nested_carries_tooDeep hfull _) (nested_carries_tooDeep hfull _)
  | succ left ih =>
    have hroom : n < levels := by omega
    have hinner := ih (n := n + 1) (by omega)
    exact signed_carries (nested_carries hroom hinner)
      (nested_carries hroom (sum_carries hinner ⟨_, signedAt_exact hhighest textEnd left⟩))

/-! ## Whole runs -/

/-- **The machine halts on all tokens**, and its answer is that of the parser. -/
theorem exists_halted (highest levels textEnd : Nat) (tokens : List Lexeme)
    (hhighest : 1 ≤ highest) :
    ∃ final, Runs highest levels textEnd tokens start final ∧
      step highest levels textEnd tokens final = none ∧
      answer? tokens final = some (parseWithin highest textEnd levels tokens) := by
  have hsigned : Carries highest levels textEnd tokens .signed 0
      (signedAt highest textEnd levels) := signedAt_carries hhighest (Nat.zero_add levels)
  have hsum : Carries highest levels textEnd tokens (.chain .sum) 0
      (sumAt highest textEnd levels) :=
    sum_carries hsigned ⟨_, signedAt_exact hhighest textEnd levels⟩
  obtain ⟨last, hrest, hruns⟩ := hsum 0 []
  rw [List.drop_zero] at hrest hruns
  refine ⟨_, hruns, rfl, ?_⟩
  rw [parseWithin]
  cases hread : sumAt highest textEnd levels tokens with
  | error err => rfl
  | ok read =>
    obtain ⟨tree, rest⟩ := read
    have hlast := hrest hread
    cases rest with
    | nil =>
      simp only [Except.map, answer?, getElem?_of_drop_eq_nil hlast]
      rfl
    | cons next rest =>
      simp only [Except.map, answer?, (getElem?_of_drop_eq_cons hlast).1]
      rfl

/-- **No run goes by the end**: from wherever a run has come, it goes on to where the machine
halts. -/
theorem runs_halted {m moment final : Machine}
    (hmoment : Runs highest levels textEnd tokens m moment)
    (hfinal : Runs highest levels textEnd tokens m final)
    (hhalted : step highest levels textEnd tokens final = none) :
    Runs highest levels textEnd tokens moment final := by
  have hunique : Relator.RightUnique fun m next =>
      step highest levels textEnd tokens m = some next := by
    intro m next next' hnext hnext'
    exact Option.some.inj (hnext.symm.trans hnext')
  rcases Relation.ReflTransGen.total_of_right_unique hunique hmoment hfinal with hon | hback
  · exact hon
  · rcases Relation.ReflTransGen.cases_head hback with rfl | ⟨next, hnext, -⟩
    · exact .refl
    · rw [hhalted] at hnext
      cases hnext

end Machine

end Parser

/-! ## Evaluating with a bounded number of calls -/

/-- **Evaluates an expression with at most `levels` calls open at once**; there is no result where
one more would be needed. -/
def Expr.evaluateWithin : (levels : Nat) → Expr → Option (Except EvalError Binary64)
  | 0, _ => none
  | _ + 1, .number value => some (checked value)
  | levels + 1, .unary op operand =>
    (operand.evaluateWithin levels).map fun outcome => outcome.map op.apply
  | levels + 1, .binary op left right =>
    (left.evaluateWithin levels).bind fun
      | .error err => some (.error err)
      | .ok a => (right.evaluateWithin levels).map fun outcome => outcome.bind (op.apply a)

/-- **As many levels are enough as the tree is high.** -/
theorem Expr.evaluateWithin_of_height_le {levels : Nat} {e : Expr} (h : e.height ≤ levels) :
    e.evaluateWithin levels = some e.evaluate := by
  induction levels generalizing e with
  | zero => exact absurd e.height_pos (Nat.not_lt.2 h)
  | succ levels ih =>
    cases e with
    | number value => rfl
    | unary op operand =>
      have hoperand := ih (e := operand) (Nat.le_of_succ_le_succ h)
      rw [evaluateWithin, hoperand, evaluate]
      cases operand.evaluate <;> rfl
    | binary op left right =>
      obtain ⟨hleft, hright⟩ := Nat.max_le.1 (Nat.le_of_succ_le_succ h)
      rw [evaluateWithin, ih hleft, ih hright, evaluate]
      cases left.evaluate with
      | error err => rfl
      | ok a => cases right.evaluate <;> rfl

namespace Parser

/-- **What parsing costs.**  On all tokens, well formed or not, the machine halts with the answer of
the parser, and every run comes to this end.  At every moment on the way no more tokens have been
taken than there are; the levels counted are those that are open, and never more than `maxNesting`;
all trees have their true heights; and a rule that returns, with a tree or with a failure, has
closed the levels it has opened, and with a tree it has taken a token.  A tree that is parsed is
therefore evaluated with at most `maxHeight` calls open at once. -/
theorem Machine.halts_within_limits (textEnd : Nat) (tokens : List Lexeme) :
    (∃ final, step maxHeight maxNesting textEnd tokens final = none ∧
      answer? tokens final = some (parse textEnd tokens) ∧
      ∀ m, Runs maxHeight maxNesting textEnd tokens start m →
        Runs maxHeight maxNesting textEnd tokens m final) ∧
    (∀ m, Runs maxHeight maxNesting textEnd tokens start m →
      m.cursor.current ≤ tokens.length ∧
      m.openLevels = m.cursor.nesting ∧ m.openLevels ≤ maxNesting ∧
      (∀ tree ∈ m.trees, tree.height = tree.expr.height) ∧
      ∀ entered result, m.control = .returns entered result →
        m.cursor.nesting = entered.nesting ∧
        ∀ tree, result = .ok tree → entered.current < m.cursor.current) ∧
    ∀ e, parse textEnd tokens = .ok e → e.evaluateWithin maxHeight = some e.evaluate := by
  obtain ⟨final, hruns, hhalted, hanswer⟩ :=
    exists_halted maxHeight maxNesting textEnd tokens (by decide)
  refine ⟨⟨final, hhalted, hanswer, fun m hm => runs_halted hm hruns hhalted⟩, ?_, ?_⟩
  · intro m hm
    have hsound := Sound.of_runs hm
    obtain ⟨hlevels, hbounded⟩ := hsound.openLevels_eq
    refine ⟨hsound.current_le, hlevels, hbounded, hsound.isMeasured, ?_⟩
    intro entered result hreturns
    have hreturned := hsound.returned hreturns
    exact ⟨hreturned.nesting_eq, fun tree htree => hreturned.advanced htree⟩
  · intro e he
    obtain ⟨n, -, -, hheight⟩ := derives_of_parseWithin (by decide) he
    exact Expr.evaluateWithin_of_height_le hheight

end Parser

end Calculator
