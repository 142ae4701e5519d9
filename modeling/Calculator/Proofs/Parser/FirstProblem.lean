import Calculator.Evaluate
import Calculator.Proofs.Lexeme
import Calculator.Proofs.Parser.Exact
import Calculator.Proofs.Prefix

/-!
# The parser stops at the first problem

`Fails` lists what a failure of a rule can mean, for a rule that was called where an operand is due
and certain parentheses are open: a limit was reached, or a token stands where the `Pending` machine
knows of no way on, or the tokens end too early.  In the second case the tokens behind the refused
one, and even the length of the text, make no difference.  The open parentheses are arbitrary, so
the same statement serves a rule at the top and deep inside of an expression, and `Fails.lift`
carries it from an inner rule to the one that called it.

Limits are only reached by long inputs.  A parser with limits beyond the number of tokens therefore
shows that the machine accepts sentences only (`isSentence_of_run`), which turns "the machine knows
of no way on" into "no sentence begins like this".
-/

namespace Calculator.Parser

open Pending

variable {highest levels textEnd : Nat} {opened : List Nat} {tokens : List Lexeme} {err : EvalError}

/-! ## What a failure means -/

/-- **The causes of a failure** of a rule, or of the whole parser, which is given for all lengths of
the text. -/
inductive Fails {α : Type} (highest levels : Nat) (rule : Nat → List Lexeme → Except EvalError α)
    (textEnd : Nat) (opened : List Nat) (tokens : List Lexeme) : EvalError → Prop where
  | tooDeep {position : Nat} : levels ≤ tokens.length ∨ highest < tokens.length →
    Fails highest levels rule textEnd opened tokens (.malformed .tooDeep position)
  | refused (front : List Lexeme) {next : Lexeme} (after : List Lexeme) {state : Pending} :
    tokens = front ++ next :: after → (operandDue opened).run front = some state →
    state.step next = none →
    (∀ textEnd' after', rule textEnd' (front ++ next :: after') = .error next.refused) →
    Fails highest levels rule textEnd opened tokens next.refused
  | unexpectedEnd (inner : List Nat) : (operandDue opened).run tokens = some (operandDue inner) →
    Fails highest levels rule textEnd opened tokens (.malformed .unexpectedEnd textEnd)
  | neverClosed {position : Nat} (inner : List Nat) :
    (operandDue opened).run tokens = some (operandRead (position :: inner)) →
    Fails highest levels rule textEnd opened tokens (.malformed (.neverClosed position) textEnd)

/-- A rule all of whose failures have such a cause. -/
structure Accounts (highest levels : Nat) (rule : Nat → Rule) : Prop where
  fails {textEnd : Nat} (opened : List Nat) {tokens : List Lexeme} {err : EvalError} :
    rule textEnd tokens = .error err → Fails highest levels rule textEnd opened tokens err

/-- **The failure of an inner rule is the failure of the outer one**, if what the outer rule has
read before leads to where an operand is due, and if the outer rule passes the failure on whenever
it sees the same next token. -/
theorem Fails.lift {α : Type} {outer : Nat → List Lexeme → Except EvalError α}
    {inner : Nat → Rule} {innerLevels : Nat} {innerOpened : List Nat}
    (h : Fails highest innerLevels inner textEnd innerOpened tokens err) (front : List Lexeme)
    (hlevels : levels ≤ front.length + innerLevels)
    (hrun : (operandDue opened).run front = some (operandDue innerOpened))
    (hpasses : ∀ {textEnd' tokens' err'}, tokens'.head? = tokens.head? →
      inner textEnd' tokens' = .error err' → outer textEnd' (front ++ tokens') = .error err') :
    Fails highest levels outer textEnd opened (front ++ tokens) err := by
  cases h with
  | tooDeep hlong =>
    refine .tooDeep ?_
    rw [List.length_append]
    omega
  | refused before after htokens hbefore hstep hsame =>
    subst htokens
    refine .refused (front ++ before) after (by simp) (by simpa [run_append, hrun]) hstep ?_
    intro textEnd' after'
    rw [List.append_assoc]
    refine hpasses ?_ (hsame textEnd' after')
    cases before <;> rfl
  | unexpectedEnd inner hend => exact .unexpectedEnd inner (by simpa [run_append, hrun])
  | neverClosed inner hend => exact .neverClosed inner (by simpa [run_append, hrun])

theorem tooDeep_accounts (highest : Nat) : Accounts highest 0 tooDeep where
  fails := by
    intro textEnd opened tokens err h
    cases h
    exact .tooDeep (.inl (Nat.zero_le _))

/-- A phrase that ends before a token leaves the machine no way on but a closing parenthesis. -/
theorem step_eq_none_of_stopsAt {next : Lexeme} {rest : List Lexeme}
    (hstops : Phrase.sum.StopsAt (next :: rest)) (hparen : next.token = .rightParen → opened = []) :
    (operandRead opened).step next = none := by
  refine step_operandRead_eq_none (fun op hop => ?_) hparen
  cases Phrase.stopsAt_cons.1 hstops op hop

/-! ## The rules -/

theorem primary_fails {sum : Nat → Rule} (hsum : Accounts highest levels sum)
    (hexact : ∀ textEnd, Exact highest levels .sum (sum textEnd))
    (hsign : ∀ next ∈ tokens.head?, ∀ op : UnaryOp, next.token ≠ op.token)
    (h : primary textEnd (sum textEnd) tokens = .error err) :
    Fails highest (levels + 1) (fun textEnd => primary textEnd (sum textEnd)) textEnd opened tokens
      err := by
  cases primary_eq_iff.1 h with
  | empty => exact .unexpectedEnd opened rfl
  | @refused next rest hnumber hparen =>
    refine .refused [] rest rfl rfl
      (step_operandDue_eq_none hnumber hparen (hsign next (by simp))) fun textEnd' after' => ?_
    exact primary_eq_iff.2 (.refused hnumber hparen)
  | @insideFailed next inside _ hnext hinside =>
    refine (hsum.fails (next.position :: opened) hinside).lift [next] ?_ ?_ ?_
    · simp only [List.length_singleton]
      omega
    · simp [step_leftParen hnext]
    · intro textEnd' tokens' err' _ hinside'
      exact primary_eq_iff.2 (.insideFailed hnext hinside')
  | @neverClosed next inside tree hnext hinside =>
    obtain ⟨front, n, e, rfl, -, hderives, -⟩ := (hexact textEnd).sound hinside
    refine .neverClosed opened ?_
    simp [step_leftParen hnext, run_of_derives hderives]
  | @notClosed next close inside rest tree hnext hinside hclose =>
    obtain ⟨front, n, e, rfl, -, hderives, hfits, hstops⟩ := (hexact textEnd).sound hinside
    have hrun : (operandDue opened).run (next :: front) =
        some (operandRead (next.position :: opened)) := by
      simp [step_leftParen hnext, run_of_derives hderives]
    refine .refused (next :: front) rest (by simp) hrun
      (step_eq_none_of_stopsAt hstops fun hparen => absurd hparen hclose) fun textEnd' after' => ?_
    have hstops' : Phrase.sum.StopsAt (close :: after') := hstops
    have hsame := (hexact textEnd').complete hderives hstops' hfits
    exact primary_eq_iff.2 (.notClosed hnext hsame hclose)

/-- A tree that is too high has more tokens than the limit. -/
theorem Fails.of_withinHeight {rule : Nat → Rule} {tree : Subtree} {rest : List Lexeme}
    (h : withinHeight highest textEnd tree rest = .error err)
    (hlength : tree.height ≤ tokens.length) :
    Fails highest levels rule textEnd opened tokens err := by
  obtain ⟨hlt, rfl⟩ := withinHeight_eq_error_iff.1 h
  exact .tooDeep (.inr (Nat.lt_of_lt_of_le hlt hlength))

theorem power_fails {signed sum : Nat → Rule} (hhighest : 1 ≤ highest)
    (hsigned : Accounts highest levels signed) (hsum : Accounts highest levels sum)
    (hexactSigned : ∀ textEnd, Exact highest levels .signed (signed textEnd))
    (hexactSum : ∀ textEnd, Exact highest levels .sum (sum textEnd))
    (hsign : ∀ next ∈ tokens.head?, ∀ op : UnaryOp, next.token ≠ op.token)
    (h : power highest textEnd (signed textEnd) (sum textEnd) tokens = .error err) :
    Fails highest (levels + 1) (fun textEnd => power highest textEnd (signed textEnd) (sum textEnd))
      textEnd opened tokens err := by
  have hprimary : ∀ textEnd, Exact highest (levels + 1) .primary (primary textEnd (sum textEnd)) :=
    fun textEnd => primary_exact hhighest (hexactSum textEnd)
  cases power_eq_iff.1 h with
  | baseFailed hbase =>
    refine (primary_fails hsum hexactSum hsign hbase).lift [] (by simp) rfl ?_
    intro textEnd' tokens' err' _ hbase'
    exact power_eq_iff.2 (.baseFailed hbase')
  | @exponentFailed after next base _ hbase hnext hexponent =>
    obtain ⟨front, n, e, rfl, -, hderives, hfits, -⟩ := (hprimary textEnd).sound hbase
    have hpower : next.token = BinaryOp.power.token := hnext
    rw [List.append_cons]
    refine (hsigned.fails opened hexponent).lift (front ++ [next]) ?_ ?_ ?_
    · simp only [List.length_append, List.length_singleton]
      omega
    · simp [run_append, run_of_derives hderives, step_operator hpower]
    · intro textEnd' tokens' err' _ hexponent'
      have hstops := Phrase.stopsAt_primary (next :: tokens')
      have hbase' := (hprimary textEnd').complete hderives hstops hfits
      rw [List.append_assoc, List.singleton_append]
      exact power_eq_iff.2 (.exponentFailed hbase' hnext hexponent')
  | @raised after rest next base exponent _ hbase hnext hexponent hwithin =>
    obtain ⟨front, m, l, rfl, rfl, hl, -⟩ := (hprimary textEnd).sound hbase
    obtain ⟨behind, n, r, rfl, rfl, hr, -⟩ := (hexactSigned textEnd).sound hexponent
    refine .of_withinHeight hwithin ?_
    have hheight := (Derives.power hl hr).height_le
    simp only [List.length_append, List.length_cons, List.length_map] at hheight ⊢
    exact Nat.le_trans hheight (by omega)

theorem signed_accounts {inner sum : Nat → Rule} (hhighest : 1 ≤ highest)
    (hinner : Accounts highest levels inner) (hsum : Accounts highest levels sum)
    (hexactInner : ∀ textEnd, Exact highest levels .signed (inner textEnd))
    (hexactSum : ∀ textEnd, Exact highest levels .sum (sum textEnd)) :
    Accounts highest (levels + 1) fun textEnd =>
      signed highest textEnd (inner textEnd) (sum textEnd) := by
  constructor
  intro textEnd opened tokens err h
  cases signed_eq_iff.1 h with
  | unsigned hsign hpower =>
    refine (power_fails hhighest hinner hsum hexactInner hexactSum hsign hpower).lift [] (by simp)
      rfl ?_
    intro textEnd' tokens' err' hhead hpower'
    exact signed_eq_iff.2 (.unsigned (hhead ▸ hsign) hpower')
  | @operandFailed next operand op _ hnext hoperand =>
    refine (hinner.fails opened hoperand).lift [next] ?_ ?_ ?_
    · simp only [List.length_singleton]
      omega
    · simp [step_sign hnext]
    · intro textEnd' tokens' err' _ hoperand'
      exact signed_eq_iff.2 (.operandFailed hnext hoperand')
  | @sign next operand rest op _ _ hnext hoperand hwithin =>
    obtain ⟨front, n, e, rfl, rfl, hderives, -⟩ := (hexactInner textEnd).sound hoperand
    refine .of_withinHeight hwithin ?_
    have hheight := hderives.height_le
    simp only [List.length_append, List.length_cons, List.length_map] at hheight ⊢
    exact Nat.succ_le_succ (Nat.le_trans hheight (by omega))

/-! ### Chains -/

section Chains

variable {phrase operandPhrase : Phrase} {isOp : BinaryOp → Bool} {op? : Token → Option BinaryOp}
  {operand : Nat → Rule}

theorem chainRest_fails (hchains : ChainsOf phrase operandPhrase isOp op?)
    (hoperand : Accounts highest levels operand)
    (hexact : ∀ textEnd, Exact highest levels operandPhrase (operand textEnd))
    {front : List Lexeme} {n : Nat} {l : Expr}
    (hl : Derives phrase n (front.map Lexeme.token) l) (hfits : Fits highest levels n l)
    (h : chainRest highest textEnd op? (operand textEnd) (.of l) tokens = .error err) :
    Fails highest levels (fun textEnd => chain highest textEnd op? (operand textEnd)) textEnd opened
      (front ++ tokens) err := by
  -- The tokens left become fewer with every link.
  induction hlength : tokens.length using Nat.strongRecOn generalizing tokens front n l with
  | ind length ih =>
    cases (chainRest_eq_iff (hexact textEnd).shrinks).1 h with
    | @operandFailed next after op _ hnext hread =>
      obtain ⟨hisOp, htoken⟩ := hchains.op?_eq_some.1 hnext
      rw [List.append_cons]
      refine (hoperand.fails opened hread).lift (front ++ [next]) ?_ ?_ ?_
      · simp
      · simp [run_append, run_of_derives hl, step_operator htoken]
      · intro textEnd' tokens' err' _ hread'
        have hstops := hchains.operand_stopsAt hisOp htoken tokens'
        have hreads :=
          (hchains.chain_reads textEnd' (hexact textEnd') (hchains.derives_iff.1 hl) hstops).1 hfits
        rw [List.append_assoc, List.singleton_append, hreads,
          chainRest_eq_iff (hexact textEnd').shrinks]
        exact .operandFailed hnext hread'
    | @tooHigh next after rest op right hnext hread hlt =>
      obtain ⟨behind, m, r, rfl, rfl, hr, -⟩ := (hexact textEnd).sound hread
      refine .tooDeep (.inr (Nat.lt_of_lt_of_le hlt ?_))
      have hheightl := hl.height_le
      have hheightr := hr.height_le
      simp only [List.length_map] at hheightl hheightr
      simp only [join, Subtree.of, List.length_append, List.length_cons]
      omega
    | @link next after rest op right _ hnext hread hle hagain =>
      obtain ⟨hisOp, htoken⟩ := hchains.op?_eq_some.1 hnext
      obtain ⟨behind, m, r, rfl, rfl, hr, hfitsr, -⟩ := (hexact textEnd).sound hread
      have hlink : Derives phrase (max n m) ((front ++ next :: behind).map Lexeme.token)
          (.binary op l r) := by
        simpa [htoken] using hchains.derives_iff.2 (.link hisOp (hchains.derives_iff.1 hl) hr)
      rw [List.length_cons, List.length_append] at hlength
      have hfails :=
        ih _ (by omega) hlink (fits_binary_iff.2 ⟨hfits, hfitsr, hle⟩) hagain rfl
      simpa using hfails

theorem chain_accounts (hchains : ChainsOf phrase operandPhrase isOp op?)
    (hoperand : Accounts highest levels operand)
    (hexact : ∀ textEnd, Exact highest levels operandPhrase (operand textEnd)) :
    Accounts highest levels fun textEnd => chain highest textEnd op? (operand textEnd) := by
  constructor
  intro textEnd opened tokens err h
  cases hread : operand textEnd tokens with
  | error err' =>
    rw [chain_of_error hread] at h
    cases h
    refine (hoperand.fails opened hread).lift [] (by simp) rfl ?_
    intro textEnd' tokens' err' _ hread'
    exact chain_of_error hread'
  | ok read =>
    obtain ⟨left, rest⟩ := read
    rw [chain_of_ok hread] at h
    obtain ⟨front, n, l, rfl, rfl, hl, hfits, -⟩ := (hexact textEnd).sound hread
    exact chainRest_fails hchains hoperand hexact (hchains.derives_iff.2 (.single hl)) hfits h

end Chains

/-! ### Every level -/

theorem sumOf_accounts {signed : Nat → Rule} (hsigned : Accounts highest levels signed)
    (hexact : ∀ textEnd, Exact highest levels .signed (signed textEnd)) :
    Accounts highest levels fun textEnd => sumOf highest textEnd (signed textEnd) :=
  chain_accounts sum_chainsOf (chain_accounts product_chainsOf hsigned hexact)
    fun textEnd => product_chainsOf.chain_exact (hexact textEnd)

theorem signedAt_accounts (hhighest : 1 ≤ highest) (levels : Nat) :
    Accounts highest (levels + 1) fun textEnd => signedAt highest textEnd levels := by
  induction levels with
  | zero =>
    exact signed_accounts hhighest (tooDeep_accounts highest) (tooDeep_accounts highest)
      (fun textEnd => tooDeep_exact highest textEnd .signed)
      (fun textEnd => tooDeep_exact highest textEnd .sum)
  | succ levels ih =>
    have hexact := fun textEnd => signedAt_exact hhighest textEnd levels
    exact signed_accounts hhighest ih (sumOf_accounts ih hexact) hexact
      (fun textEnd => sumOf_exact (hexact textEnd))

/-- **The failures of a whole parse.** -/
theorem parseWithin_fails (hhighest : 1 ≤ highest)
    (h : parseWithin highest textEnd levels tokens = .error err) :
    Fails highest (levels + 1) (fun textEnd => parseWithin highest textEnd levels) textEnd [] tokens
      err := by
  have hexact := fun textEnd => sumAt_exact hhighest textEnd levels
  have haccounts : Accounts highest (levels + 1) fun textEnd => sumAt highest textEnd levels :=
    sumOf_accounts (signedAt_accounts hhighest levels)
      fun textEnd => signedAt_exact hhighest textEnd levels
  cases hsum : sumAt highest textEnd levels tokens with
  | error err' =>
    simp only [parseWithin, hsum, bind, Except.bind] at h
    cases h
    refine (haccounts.fails [] hsum).lift [] (by simp) rfl ?_
    intro textEnd' tokens' err' _ hsum'
    simp [parseWithin, hsum', bind, Except.bind]
  | ok read =>
    obtain ⟨tree, _ | ⟨next, after⟩⟩ := read
    · simp [parseWithin, hsum, bind, Except.bind] at h
    · simp only [parseWithin, hsum, bind, Except.bind] at h
      cases h
      obtain ⟨front, n, e, rfl, -, hderives, hfits, hstops⟩ := (hexact textEnd).sound hsum
      have hstep : (operandRead []).step next = none := step_eq_none_of_stopsAt hstops fun _ => rfl
      refine .refused front after rfl (run_of_derives hderives) hstep fun textEnd' after' => ?_
      have hstops' : Phrase.sum.StopsAt (next :: after') := hstops
      have hsame := (hexact textEnd').complete hderives hstops' hfits
      simp [parseWithin, hsame, bind, Except.bind]

/-! ## The machine accepts sentences only -/

/-- With limits beyond the number of tokens nothing is left for the parser to complain of. -/
theorem isSentence_of_run (h : (operandDue []).run tokens = some (operandRead [])) :
    IsSentence (tokens.map Lexeme.token) := by
  have hhighest : 1 ≤ tokens.length + 1 := Nat.succ_pos _
  cases hparse : parseWithin (tokens.length + 1) 0 tokens.length tokens with
  | ok e =>
    obtain ⟨n, -, hderives, -⟩ := derives_of_parseWithin hhighest hparse
    exact ⟨n, e, hderives⟩
  | error err =>
    cases parseWithin_fails hhighest hparse with
    | tooDeep hlong => omega
    | refused front after htokens hrun hstep =>
      rw [htokens, run_append, hrun, Option.bind_some, run_cons, hstep] at h
      cases h
    | unexpectedEnd inner hend =>
      rw [h] at hend
      cases hend
    | neverClosed inner hend =>
      rw [h] at hend
      cases hend

/-- **The machine knows a way on exactly from the beginnings of sentences.** -/
theorem beginsSentence_iff :
    BeginsSentence (tokens.map Lexeme.token) ↔
      ∃ state, (operandDue []).run tokens = some state := by
  refine ⟨run_of_beginsSentence, fun ⟨state, hstate⟩ => ⟨state.closing.map Lexeme.token, ?_⟩⟩
  rw [← List.map_append]
  refine isSentence_of_run ?_
  rw [run_append, hstate, Option.bind_some, run_closing]

theorem not_beginsSentence_of_step {front : List Lexeme} {next : Lexeme} {state : Pending}
    (hrun : (operandDue []).run front = some state) (hstep : state.step next = none) :
    ¬ BeginsSentence ((front ++ [next]).map Lexeme.token) := by
  rw [beginsSentence_iff]
  rintro ⟨after, hafter⟩
  rw [run_append, hrun, Option.bind_some, run_cons, hstep] at hafter
  cases hafter

theorem not_isSentence_of_run {state : Pending} (hrun : (operandDue []).run tokens = some state)
    (hstate : state ≠ operandRead []) : ¬ IsSentence (tokens.map Lexeme.token) := by
  rintro ⟨n, e, hderives⟩
  rw [run_of_derives hderives] at hrun
  cases hrun
  exact hstate rfl

end Calculator.Parser

namespace Calculator

/-! ## Texts -/

theorem Lexeme.refused_of_foreign {next : Lexeme} {construct : Construct}
    (h : next.token = .foreign construct) : next.refused = .disallowed construct next.position := by
  simp [refused, h]

theorem Lexeme.refused_of_not_foreign {next : Lexeme}
    (h : ∀ construct, next.token ≠ .foreign construct) :
    ∃ fault, next.refused = .malformed fault next.position := by
  rw [refused]
  split
  case h_1 construct hnext => exact absurd hnext (h construct)
  all_goals exact ⟨_, rfl⟩

theorem parse_of_not_blank {text : String} (h : Text.allBlank text.toList = false) :
    parse text = Parser.parse text.length (Lexeme.scan text.toList) := by
  simp [parse, h, String.length_toList]

/-- **The first problem wins.**  A text that is not blank and is refused for another reason than its
depth is refused at the first token with which no sentence can go on, whatever stands behind that
token, or at its end if it is only the beginning of a sentence. -/
theorem parse_error_at_first_problem {text : String} {err : EvalError}
    (hblank : Text.allBlank text.toList = false) (herr : parse text = .error err)
    (hshallow : ∀ position, err ≠ .malformed .tooDeep position) :
    (∃ front next after, Lexeme.scan text.toList = front ++ next :: after ∧
      BeginsSentence (front.map Lexeme.token) ∧
      ¬ BeginsSentence ((front ++ [next]).map Lexeme.token) ∧
      next.position < text.length ∧
      (∀ construct, next.token = .foreign construct → err = .disallowed construct next.position) ∧
      ((∀ construct, next.token ≠ .foreign construct) →
        ∃ fault, err = .malformed fault next.position) ∧
      ∀ other : String, Text.allBlank other.toList = false →
        (front ++ [next]) <+: Lexeme.scan other.toList → parse other = .error err) ∨
    (BeginsSentence ((Lexeme.scan text.toList).map Lexeme.token) ∧
      ¬ IsSentence ((Lexeme.scan text.toList).map Lexeme.token) ∧
      ∃ fault, err = .malformed fault text.length) := by
  rw [parse_of_not_blank hblank] at herr
  have hfails := Parser.parseWithin_fails (by decide) herr
  generalize htokens : Lexeme.scan text.toList = tokens at hfails herr
  cases hfails with
  | tooDeep => exact absurd rfl (hshallow _)
  | @refused front next after state hsplit hrun hstep hsame =>
    refine .inl ⟨front, next, after, hsplit, Parser.beginsSentence_iff.2 ⟨state, hrun⟩,
      Parser.not_beginsSentence_of_step hrun hstep, ?_, fun construct => Lexeme.refused_of_foreign,
      Lexeme.refused_of_not_foreign, fun other hother hprefix => ?_⟩
    · rw [← String.length_toList]
      exact Lexeme.position_lt (by simp [htokens, hsplit])
    · obtain ⟨after', hafter'⟩ := hprefix
      rw [parse_of_not_blank hother, ← hafter', List.append_assoc, List.singleton_append]
      exact hsame other.length after'
  | unexpectedEnd inner hrun =>
    exact .inr ⟨Parser.beginsSentence_iff.2 ⟨_, hrun⟩,
      Parser.not_isSentence_of_run hrun (by simp), _, rfl⟩
  | neverClosed inner hrun =>
    exact .inr ⟨Parser.beginsSentence_iff.2 ⟨_, hrun⟩,
      Parser.not_isSentence_of_run hrun (by simp), _, rfl⟩

/-- A word inside of an open parenthesis is the first problem, not the symbol behind it. -/
theorem parse_error_at_word :
    ∃ front next after, Lexeme.scan "-(x+$)".toList = front ++ next :: after ∧
      BeginsSentence (front.map Lexeme.token) ∧
      ¬ BeginsSentence ((front ++ [next]).map Lexeme.token) ∧ next.position = 2 := by
  have herr : parse "-(x+$)" = .error (.disallowed .identifier 2) := rfl
  rcases parse_error_at_first_problem (by rfl) herr (by simp) with
    ⟨front, next, after, hscan, hbegins, hoffends, -, hforeign, hother, -⟩ | ⟨-, -, fault, hfault⟩
  · refine ⟨front, next, after, hscan, hbegins, hoffends, ?_⟩
    by_cases hnext : ∃ construct, next.token = .foreign construct
    · obtain ⟨construct, hconstruct⟩ := hnext
      have herr' := hforeign construct hconstruct
      simp only [EvalError.disallowed.injEq] at herr'
      exact herr'.2.symm
    · obtain ⟨fault, hfault⟩ := hother fun construct hconstruct => hnext ⟨construct, hconstruct⟩
      cases hfault
  · cases hfault

end Calculator
