import Calculator.Expr.Parser
import Calculator.Proofs.Phrase

/-!
# What the rules of the parser do

Each rule looks at the next token, calls other rules and passes their failures on.  For every rule
there is a relation with one constructor for each way through its text (`PrimaryReads`,
`PowerReads`, `SignedReads`, `ChainReads`), and a theorem that the rule gives a result exactly when
the relation holds of it.  The relations say nothing of the rules that are called, so a fact about a
rule is a fact about its arguments and one case for each constructor.  Later modules know the rules
by these relations only.
-/

namespace Calculator.Parser

/-- What a rule gives: a tree with the tokens after it, or a failure. -/
abbrev Outcome := Except EvalError (Subtree × List Lexeme)

variable {highest textEnd : Nat}

/-! ## The limit on the height -/

theorem withinHeight_of_le {tree : Subtree} (rest : List Lexeme) (h : tree.height ≤ highest) :
    withinHeight highest textEnd tree rest = .ok (tree, rest) := by
  simp [withinHeight, h]

theorem withinHeight_of_lt {tree : Subtree} (rest : List Lexeme) (h : highest < tree.height) :
    withinHeight highest textEnd tree rest =
      .error (.malformed .tooDeep (positionOf textEnd rest)) := by
  simp [withinHeight, h]

theorem withinHeight_eq_ok_iff {tree : Subtree} {rest : List Lexeme}
    {read : Subtree × List Lexeme} :
    withinHeight highest textEnd tree rest = .ok read ↔
      tree.height ≤ highest ∧ read = (tree, rest) := by
  rcases Nat.lt_or_ge highest tree.height with hlt | hle
  · simp [withinHeight_of_lt rest hlt, Nat.not_le_of_lt hlt]
  · simp [withinHeight_of_le rest hle, hle, eq_comm]

theorem withinHeight_eq_error_iff {tree : Subtree} {rest : List Lexeme} {err : EvalError} :
    withinHeight highest textEnd tree rest = .error err ↔
      highest < tree.height ∧ err = .malformed .tooDeep (positionOf textEnd rest) := by
  rcases Nat.lt_or_ge highest tree.height with hlt | hle
  · simp [withinHeight_of_lt rest hlt, hlt, eq_comm]
  · simp [withinHeight_of_le rest hle, Nat.not_lt_of_le hle]

/-! ## Operators -/

theorem sumOp?_eq_some_iff {token : Token} {op : BinaryOp} :
    sumOp? token = some op ↔ op.isAdditive = true ∧ token = op.token := by
  cases token <;> cases op <;> simp [sumOp?, BinaryOp.isAdditive, BinaryOp.token]

theorem productOp?_eq_some_iff {token : Token} {op : BinaryOp} :
    productOp? token = some op ↔ op.isMultiplicative = true ∧ token = op.token := by
  cases token <;> cases op <;> simp [productOp?, BinaryOp.isMultiplicative, BinaryOp.token]

theorem sign?_eq_some_iff {token : Token} {op : UnaryOp} :
    sign? token = some op ↔ token = op.token := by
  cases token <;> cases op <;> simp [sign?, UnaryOp.token]

/-! ## Primaries -/

/-- **The ways through `primary`.** -/
inductive PrimaryReads (textEnd : Nat) (sum : Rule) : List Lexeme → Outcome → Prop where
  | number {next : Lexeme} {rest : List Lexeme} {value : Binary64} :
    next.token = .number value →
    PrimaryReads textEnd sum (next :: rest) (.ok (⟨.number value, 1⟩, rest))
  | closed {next close : Lexeme} {inside rest : List Lexeme} {tree : Subtree} :
    next.token = .leftParen → sum inside = .ok (tree, close :: rest) → close.token = .rightParen →
    PrimaryReads textEnd sum (next :: inside) (.ok (tree, rest))
  | empty : PrimaryReads textEnd sum [] (.error (.malformed .unexpectedEnd textEnd))
  | refused {next : Lexeme} {rest : List Lexeme} :
    (∀ value, next.token ≠ .number value) → next.token ≠ .leftParen →
    PrimaryReads textEnd sum (next :: rest) (.error next.refused)
  | insideFailed {next : Lexeme} {inside : List Lexeme} {err : EvalError} :
    next.token = .leftParen → sum inside = .error err →
    PrimaryReads textEnd sum (next :: inside) (.error err)
  | neverClosed {next : Lexeme} {inside : List Lexeme} {tree : Subtree} :
    next.token = .leftParen → sum inside = .ok (tree, []) →
    PrimaryReads textEnd sum (next :: inside)
      (.error (.malformed (.neverClosed next.position) textEnd))
  | notClosed {next close : Lexeme} {inside rest : List Lexeme} {tree : Subtree} :
    next.token = .leftParen → sum inside = .ok (tree, close :: rest) →
    close.token ≠ .rightParen →
    PrimaryReads textEnd sum (next :: inside) (.error close.refused)

theorem primaryReads (textEnd : Nat) (sum : Rule) (tokens : List Lexeme) :
    PrimaryReads textEnd sum tokens (primary textEnd sum tokens) := by
  cases tokens with
  | nil => exact .empty
  | cons next inside =>
    rw [primary]
    split
    case h_1 value hnext => exact .number hnext
    case h_2 hnext =>
      cases hsum : sum inside with
      | error err => exact .insideFailed hnext hsum
      | ok read =>
        obtain ⟨tree, _ | ⟨close, rest⟩⟩ := read
        · exact .neverClosed hnext hsum
        · simp only [bind, Except.bind]
          split
          case isTrue hclose => exact .closed hnext hsum hclose
          case isFalse hclose => exact .notClosed hnext hsum hclose
    case h_3 hnumber hparen => exact .refused hnumber hparen

theorem primary_eq_iff {sum : Rule} {tokens : List Lexeme} {outcome : Outcome} :
    primary textEnd sum tokens = outcome ↔ PrimaryReads textEnd sum tokens outcome := by
  constructor
  · rintro rfl
    exact primaryReads textEnd sum tokens
  · intro h
    cases h with
    | number hnext => simp [primary, hnext]
    | closed hnext hsum hclose => simp [primary, hnext, hsum, hclose, bind, Except.bind]
    | empty => rfl
    | refused hnumber hparen =>
      rw [primary]
      split
      case h_1 value hnext => exact absurd hnext (hnumber value)
      case h_2 hnext => exact absurd hnext hparen
      case h_3 => rfl
    | insideFailed hnext hsum => simp [primary, hnext, hsum, bind, Except.bind]
    | neverClosed hnext hsum => simp [primary, hnext, hsum, bind, Except.bind]
    | notClosed hnext hsum hclose => simp [primary, hnext, hsum, hclose, bind, Except.bind]

/-! ## Powers -/

/-- **The ways through `power`.** -/
inductive PowerReads (highest textEnd : Nat) (signed sum : Rule) :
    List Lexeme → Outcome → Prop where
  | baseFailed {tokens : List Lexeme} {err : EvalError} :
    primary textEnd sum tokens = .error err →
    PowerReads highest textEnd signed sum tokens (.error err)
  | alone {tokens rest : List Lexeme} {base : Subtree} :
    primary textEnd sum tokens = .ok (base, rest) → Phrase.signed.StopsAt rest →
    PowerReads highest textEnd signed sum tokens (.ok (base, rest))
  | exponentFailed {tokens after : List Lexeme} {next : Lexeme} {base : Subtree} {err : EvalError} :
    primary textEnd sum tokens = .ok (base, next :: after) → next.token = .doubleStar →
    signed after = .error err → PowerReads highest textEnd signed sum tokens (.error err)
  | raised {tokens after rest : List Lexeme} {next : Lexeme} {base exponent : Subtree}
      {outcome : Outcome} :
    primary textEnd sum tokens = .ok (base, next :: after) → next.token = .doubleStar →
    signed after = .ok (exponent, rest) →
    withinHeight highest textEnd (join .power base exponent) rest = outcome →
    PowerReads highest textEnd signed sum tokens outcome

theorem powerReads (highest textEnd : Nat) (signed sum : Rule) (tokens : List Lexeme) :
    PowerReads highest textEnd signed sum tokens (power highest textEnd signed sum tokens) := by
  cases hbase : primary textEnd sum tokens with
  | error err =>
    have : power highest textEnd signed sum tokens = .error err := by
      simp [power, hbase, bind, Except.bind]
    exact this ▸ .baseFailed hbase
  | ok read =>
    obtain ⟨base, _ | ⟨next, after⟩⟩ := read
    · have : power highest textEnd signed sum tokens = .ok (base, []) := by
        simp [power, hbase, bind, Except.bind]
      exact this ▸ .alone hbase (by simp)
    · simp only [power, hbase, bind, Except.bind]
      split
      case isTrue hnext =>
        split
        case h_1 err hsigned => exact .exponentFailed hbase hnext hsigned
        case h_2 read hsigned => exact .raised hbase hnext hsigned rfl
      case isFalse hnext => exact .alone hbase (Phrase.stopsAt_signed_cons.2 hnext)

theorem power_eq_iff {signed sum : Rule} {tokens : List Lexeme} {outcome : Outcome} :
    power highest textEnd signed sum tokens = outcome ↔
      PowerReads highest textEnd signed sum tokens outcome := by
  constructor
  · rintro rfl
    exact powerReads highest textEnd signed sum tokens
  · intro h
    cases h with
    | baseFailed hbase => simp [power, hbase, bind, Except.bind]
    | @alone rest _ hbase hstops =>
      cases rest with
      | nil => simp [power, hbase, bind, Except.bind]
      | cons next after =>
        simp [power, hbase, bind, Except.bind, Phrase.stopsAt_signed_cons.1 hstops]
    | exponentFailed hbase hnext hsigned => simp [power, hbase, hnext, hsigned, bind, Except.bind]
    | raised hbase hnext hsigned houtcome =>
      simp [power, hbase, hnext, hsigned, houtcome, bind, Except.bind]

/-! ## Signed operands -/

/-- **The ways through `signed`**; `inner` is the rule for what stands behind a sign. -/
inductive SignedReads (highest textEnd : Nat) (inner sum : Rule) :
    List Lexeme → Outcome → Prop where
  | unsigned {tokens : List Lexeme} {outcome : Outcome} :
    (∀ next ∈ tokens.head?, ∀ op : UnaryOp, next.token ≠ op.token) →
    power highest textEnd inner sum tokens = outcome →
    SignedReads highest textEnd inner sum tokens outcome
  | operandFailed {next : Lexeme} {tokens : List Lexeme} {op : UnaryOp} {err : EvalError} :
    next.token = op.token → inner tokens = .error err →
    SignedReads highest textEnd inner sum (next :: tokens) (.error err)
  | sign {next : Lexeme} {tokens rest : List Lexeme} {op : UnaryOp} {operand : Subtree}
      {outcome : Outcome} :
    next.token = op.token → inner tokens = .ok (operand, rest) →
    withinHeight highest textEnd ⟨.unary op operand.expr, operand.height + 1⟩ rest = outcome →
    SignedReads highest textEnd inner sum (next :: tokens) outcome

theorem signedReads (highest textEnd : Nat) (inner sum : Rule) (tokens : List Lexeme) :
    SignedReads highest textEnd inner sum tokens (signed highest textEnd inner sum tokens) := by
  cases tokens with
  | nil => exact .unsigned (by simp) rfl
  | cons next tokens =>
    rw [signed]
    split
    case h_1 hnext =>
      refine .unsigned ?_ rfl
      intro first hfirst op hop
      obtain rfl : next = first := by simpa using hfirst
      rw [sign?_eq_some_iff.2 hop] at hnext
      cases hnext
    case h_2 op hnext =>
      have htoken := sign?_eq_some_iff.1 hnext
      cases hinner : inner tokens with
      | error err => exact .operandFailed htoken hinner
      | ok read => exact .sign htoken hinner rfl

theorem signed_eq_iff {inner sum : Rule} {tokens : List Lexeme} {outcome : Outcome} :
    signed highest textEnd inner sum tokens = outcome ↔
      SignedReads highest textEnd inner sum tokens outcome := by
  constructor
  · rintro rfl
    exact signedReads highest textEnd inner sum tokens
  · intro h
    cases h with
    | unsigned hfirst hpower =>
      cases tokens with
      | nil => exact hpower
      | cons next tokens =>
        have hnext : sign? next.token = none := by
          refine Option.eq_none_iff_forall_ne_some.2 fun op hop => ?_
          exact hfirst next (by simp) op (sign?_eq_some_iff.1 hop)
        rw [signed, hnext]
        exact hpower
    | operandFailed htoken hinner =>
      simp [signed, sign?_eq_some_iff.2 htoken, hinner, bind, Except.bind]
    | sign htoken hinner houtcome =>
      simp [signed, sign?_eq_some_iff.2 htoken, hinner, houtcome, bind, Except.bind]

/-! ## Chains

A chain takes an operator in each step, so it may be given any number of steps that is not less than
the number of tokens.  `chainRest` gives it exactly that many. -/

/-- A rule that hands on no more tokens than it was given. -/
def Shrinks (rule : Rule) : Prop :=
  ∀ {tokens rest : List Lexeme} {tree : Subtree},
    rule tokens = .ok (tree, rest) → rest.length ≤ tokens.length

/-- A chain after `left` has been read. -/
def chainRest (highest textEnd : Nat) (op? : Token → Option BinaryOp) (operand : Rule)
    (left : Subtree) : Rule :=
  fun tokens => chainFrom highest textEnd op? operand tokens.length left tokens

/-- **The ways through one step of a chain** after `left` has been read; `again` goes on. -/
inductive ChainReads (highest textEnd : Nat) (op? : Token → Option BinaryOp) (operand : Rule)
    (again : Subtree → Rule) (left : Subtree) : List Lexeme → Outcome → Prop where
  | stop {tokens : List Lexeme} :
    (∀ next ∈ tokens.head?, op? next.token = none) →
    ChainReads highest textEnd op? operand again left tokens (.ok (left, tokens))
  | operandFailed {next : Lexeme} {tokens : List Lexeme} {op : BinaryOp} {err : EvalError} :
    op? next.token = some op → operand tokens = .error err →
    ChainReads highest textEnd op? operand again left (next :: tokens) (.error err)
  | tooHigh {next : Lexeme} {tokens rest : List Lexeme} {op : BinaryOp} {right : Subtree} :
    op? next.token = some op → operand tokens = .ok (right, rest) →
    highest < (join op left right).height →
    ChainReads highest textEnd op? operand again left (next :: tokens)
      (.error (.malformed .tooDeep (positionOf textEnd rest)))
  | link {next : Lexeme} {tokens rest : List Lexeme} {op : BinaryOp} {right : Subtree}
      {outcome : Outcome} :
    op? next.token = some op → operand tokens = .ok (right, rest) →
    (join op left right).height ≤ highest → again (join op left right) rest = outcome →
    ChainReads highest textEnd op? operand again left (next :: tokens) outcome

section Chains

variable {op? : Token → Option BinaryOp} {operand : Rule}

theorem chainFrom_eq_iff {steps : Nat} {left : Subtree} {tokens : List Lexeme} {outcome : Outcome} :
    chainFrom highest textEnd op? operand (steps + 1) left tokens = outcome ↔
      ChainReads highest textEnd op? operand (chainFrom highest textEnd op? operand steps)
        left tokens outcome := by
  constructor
  · rintro rfl
    cases tokens with
    | nil => exact .stop (by simp)
    | cons next tokens =>
      rw [chainFrom]
      split
      case h_1 hnext => exact .stop (by simpa using hnext)
      case h_2 op hnext =>
        cases hoperand : operand tokens with
        | error err => exact .operandFailed hnext hoperand
        | ok read =>
          obtain ⟨right, rest⟩ := read
          rcases Nat.lt_or_ge highest (join op left right).height with hlt | hle
          · simp only [bind, Except.bind, withinHeight_of_lt rest hlt]
            exact .tooHigh hnext hoperand hlt
          · simp only [bind, Except.bind, withinHeight_of_le rest hle]
            exact .link hnext hoperand hle rfl
  · intro h
    cases h with
    | stop hnext =>
      cases tokens with
      | nil => rfl
      | cons next tokens =>
        have hnone : op? next.token = none := hnext next (by simp)
        simp [chainFrom, hnone]
    | operandFailed hnext hoperand => simp [chainFrom, hnext, hoperand, bind, Except.bind]
    | tooHigh hnext hoperand hlt =>
      simp [chainFrom, hnext, hoperand, withinHeight_of_lt _ hlt, bind, Except.bind]
    | link hnext hoperand hle hagain =>
      simp [chainFrom, hnext, hoperand, withinHeight_of_le _ hle, hagain, bind, Except.bind]

theorem ChainReads.congr (hshrinks : Shrinks operand) {again again' : Subtree → Rule}
    {left : Subtree} {tokens : List Lexeme} {outcome : Outcome}
    (hagain : ∀ tree rest, rest.length < tokens.length → again tree rest = again' tree rest)
    (h : ChainReads highest textEnd op? operand again left tokens outcome) :
    ChainReads highest textEnd op? operand again' left tokens outcome := by
  cases h with
  | stop hnext => exact .stop hnext
  | operandFailed hnext hoperand => exact .operandFailed hnext hoperand
  | tooHigh hnext hoperand hlt => exact .tooHigh hnext hoperand hlt
  | link hnext hoperand hle houtcome =>
    refine .link hnext hoperand hle ?_
    rw [← hagain _ _ (Nat.lt_succ_of_le (hshrinks hoperand))]
    exact houtcome

/-- Steps beyond the number of tokens make no difference. -/
theorem chainFrom_eq_chainRest (hshrinks : Shrinks operand) {steps : Nat} (left : Subtree)
    {tokens : List Lexeme} (hsteps : tokens.length ≤ steps) :
    chainFrom highest textEnd op? operand steps left tokens =
      chainRest highest textEnd op? operand left tokens := by
  induction steps using Nat.strongRecOn generalizing left tokens with
  | ind steps ih =>
    cases tokens with
    | nil => cases steps <;> rfl
    | cons next tokens =>
      obtain ⟨steps, rfl⟩ : ∃ s, steps = s + 1 := ⟨steps - 1, by simp at hsteps; omega⟩
      rw [chainFrom_eq_iff]
      refine ChainReads.congr hshrinks ?_ (chainFrom_eq_iff.1 rfl)
      intro tree rest hrest
      simp only [List.length_cons] at hsteps hrest
      rcases Nat.lt_or_ge tokens.length steps with hlt | hge
      · rw [ih tokens.length (by omega) tree (by omega), ih steps (by omega) tree (by omega)]
      · rw [Nat.le_antisymm hge (by omega : tokens.length ≤ steps)]

theorem chainRest_eq_iff (hshrinks : Shrinks operand) {left : Subtree} {tokens : List Lexeme}
    {outcome : Outcome} :
    chainRest highest textEnd op? operand left tokens = outcome ↔
      ChainReads highest textEnd op? operand (chainRest highest textEnd op? operand)
        left tokens outcome := by
  have hagain : ∀ tree rest, rest.length < tokens.length + 1 →
      chainFrom highest textEnd op? operand tokens.length tree rest =
        chainRest highest textEnd op? operand tree rest :=
    fun tree rest hrest => chainFrom_eq_chainRest hshrinks tree (by omega)
  rw [← chainFrom_eq_chainRest hshrinks left (Nat.le_succ tokens.length), chainFrom_eq_iff]
  exact ⟨ChainReads.congr hshrinks fun tree rest hrest => hagain tree rest (by omega),
    ChainReads.congr hshrinks fun tree rest hrest => (hagain tree rest (by omega)).symm⟩

theorem chain_of_error {tokens : List Lexeme} {err : EvalError} (h : operand tokens = .error err) :
    chain highest textEnd op? operand tokens = .error err := by
  simp [chain, h, bind, Except.bind]

theorem chain_of_ok {tokens rest : List Lexeme} {left : Subtree}
    (h : operand tokens = .ok (left, rest)) :
    chain highest textEnd op? operand tokens = chainRest highest textEnd op? operand left rest := by
  simp [chain, chainRest, h, bind, Except.bind]

end Chains

end Calculator.Parser
