import Calculator.Proofs.Parser.Rule

/-!
# The parser is exact

A rule of the parser is **exact** for a kind of phrase when it decides that kind: it reads a tree
only from a phrase that stands for the tree and ends there, it reads every phrase within the limits
to its end, and it refuses every phrase beyond them as too deep.  `primary_exact`, `power_exact`,
`signed_exact` and `chain_exact` show that each rule is exact if the rules it calls are, so all
rules are exact at every level by induction on the number of levels (`signedAt_exact`,
`sumAt_exact`).

Exactness holds at all limits.  Taking them large enough for two given derivations shows that the
grammar gives a sequence of tokens at most one tree (`Derives.tree_unique`).
-/

namespace Calculator.Parser

/-! ## Limits -/

/-- The tree with its true height. -/
def Subtree.of (e : Expr) : Subtree := ⟨e, e.height⟩

@[simp] theorem Subtree.expr_of (e : Expr) : (Subtree.of e).expr = e := rfl

/-- **Within the limits**: nested less deep than there are levels, and not too high. -/
structure Fits (highest levels n : Nat) (e : Expr) : Prop where
  nesting_lt : n < levels
  height_le : e.height ≤ highest

variable {highest textEnd levels m n : Nat} {e l r : Expr}

theorem fits_succ_iff : Fits highest (levels + 1) (n + 1) e ↔ Fits highest levels n e :=
  ⟨fun h => ⟨Nat.lt_of_succ_lt_succ h.nesting_lt, h.height_le⟩,
    fun h => ⟨Nat.succ_lt_succ h.nesting_lt, h.height_le⟩⟩

theorem fits_unary_iff {op : UnaryOp} :
    Fits highest (levels + 1) (n + 1) (.unary op e) ↔
      Fits highest levels n e ∧ e.height + 1 ≤ highest := by
  constructor
  · rintro ⟨hnesting, hheight⟩
    simp only [Expr.height] at hheight
    exact ⟨⟨by omega, by omega⟩, hheight⟩
  · rintro ⟨hfits, hheight⟩
    exact ⟨Nat.succ_lt_succ hfits.nesting_lt, hheight⟩

theorem fits_binary_iff {op : BinaryOp} :
    Fits highest levels (max m n) (.binary op l r) ↔
      Fits highest levels m l ∧ Fits highest levels n r ∧
        (join op (.of l) (.of r)).height ≤ highest := by
  constructor
  · rintro ⟨hnesting, hheight⟩
    simp only [Expr.height] at hheight
    exact ⟨⟨by omega, by omega⟩, ⟨by omega, by omega⟩, hheight⟩
  · rintro ⟨hl, hr, hheight⟩
    exact ⟨Nat.max_lt.2 ⟨hl.nesting_lt, hr.nesting_lt⟩, hheight⟩

/-! ## Exact rules -/

/-- **An exact rule** for a kind of phrase, with a number of levels left. -/
structure Exact (highest levels : Nat) (phrase : Phrase) (rule : Rule) : Prop where
  sound {tokens rest : List Lexeme} {tree : Subtree} : rule tokens = .ok (tree, rest) →
    ∃ front n e, tokens = front ++ rest ∧ tree = .of e ∧
      Derives phrase n (front.map Lexeme.token) e ∧ Fits highest levels n e ∧ phrase.StopsAt rest
  complete {front rest : List Lexeme} {n : Nat} {e : Expr} :
    Derives phrase n (front.map Lexeme.token) e → phrase.StopsAt rest → Fits highest levels n e →
    rule (front ++ rest) = .ok (.of e, rest)
  strict {front rest : List Lexeme} {n : Nat} {e : Expr} :
    Derives phrase n (front.map Lexeme.token) e → phrase.StopsAt rest →
    ¬ Fits highest levels n e →
    ∃ position, rule (front ++ rest) = .error (.malformed .tooDeep position)

theorem Exact.shrinks {phrase : Phrase} {rule : Rule} (h : Exact highest levels phrase rule) :
    Shrinks rule := by
  intro tokens rest tree hread
  obtain ⟨front, n, e, rfl, -⟩ := h.sound hread
  simp

/-- Below the last level nothing fits. -/
theorem tooDeep_exact (highest textEnd : Nat) (phrase : Phrase) :
    Exact highest 0 phrase (tooDeep textEnd) where
  sound h := by cases h
  complete _ _ hfits := absurd hfits.nesting_lt (Nat.not_lt_zero _)
  strict _ _ _ := ⟨_, rfl⟩

/-! ### Primaries -/

theorem primary_forms {front : List Lexeme} (h : Derives .primary n (front.map Lexeme.token) e) :
    (∃ next value, front = [next] ∧ next.token = .number value ∧ n = 0 ∧ e = .number value) ∨
      ∃ next inside close m, front = next :: (inside ++ [close]) ∧ next.token = .leftParen ∧
        close.token = .rightParen ∧ n = m + 1 ∧ Derives .sum m (inside.map Lexeme.token) e := by
  generalize htokens : front.map Lexeme.token = tokens at h
  cases h with
  | number value =>
    obtain ⟨next, rfl, hnext⟩ := List.map_eq_singleton_iff.1 htokens
    exact .inl ⟨next, value, rfl, hnext, rfl, rfl⟩
  | @parentheses m inner _ hinner =>
    obtain ⟨next, after, rfl, hnext, hafter⟩ := List.map_eq_cons_iff.1 htokens
    obtain ⟨inside, last, rfl, rfl, hlast⟩ := List.map_eq_append_iff.1 hafter
    obtain ⟨close, rfl, hclose⟩ := List.map_eq_singleton_iff.1 hlast
    exact .inr ⟨next, inside, close, m, rfl, hnext, hclose, rfl, hinner⟩

theorem stopsAt_sum_rightParen {close : Lexeme} (rest : List Lexeme)
    (h : close.token = .rightParen) : Phrase.sum.StopsAt (close :: rest) :=
  Phrase.stopsAt_of_ne_operator _ rest fun op hop => op.token_ne_rightParen (hop ▸ h)

theorem primary_exact {sum : Rule} (hhighest : 1 ≤ highest) (hsum : Exact highest levels .sum sum) :
    Exact highest (levels + 1) .primary (primary textEnd sum) where
  sound := by
    intro tokens rest tree h
    cases primary_eq_iff.1 h with
    | @number next _ value hnext =>
      refine ⟨[next], 0, .number value, rfl, rfl, ?_, ⟨Nat.succ_pos _, hhighest⟩, by simp⟩
      simpa [hnext] using Derives.number value
    | @closed next close _ _ _ hnext hinside hclose =>
      obtain ⟨front, n, e, rfl, rfl, hderives, hfits, -⟩ := hsum.sound hinside
      refine ⟨next :: (front ++ [close]), n + 1, e, by simp, rfl, ?_, fits_succ_iff.2 hfits,
        by simp⟩
      simpa [hnext, hclose] using Derives.parentheses hderives
  complete := by
    intro front rest n e h _ hfits
    rcases primary_forms h with ⟨next, value, rfl, hnext, rfl, rfl⟩ |
      ⟨next, inside, close, m, rfl, hnext, hclose, rfl, hinside⟩
    · exact primary_eq_iff.2 (.number hnext)
    · have hread := hsum.complete hinside (stopsAt_sum_rightParen rest hclose)
        (fits_succ_iff.1 hfits)
      rw [List.cons_append, List.append_assoc, List.singleton_append]
      exact primary_eq_iff.2 (.closed hnext hread hclose)
  strict := by
    intro front rest n e h _ hfits
    rcases primary_forms h with ⟨next, value, rfl, hnext, rfl, rfl⟩ |
      ⟨next, inside, close, m, rfl, hnext, hclose, rfl, hinside⟩
    · exact absurd ⟨Nat.succ_pos _, hhighest⟩ hfits
    · obtain ⟨position, hread⟩ := hsum.strict hinside (stopsAt_sum_rightParen rest hclose)
        (fun h => hfits (fits_succ_iff.2 h))
      rw [List.cons_append, List.append_assoc, List.singleton_append]
      exact ⟨position, primary_eq_iff.2 (.insideFailed hnext hread)⟩

/-! ### Powers -/

theorem power_forms {front : List Lexeme} (h : Derives .power n (front.map Lexeme.token) e) :
    Derives .primary n (front.map Lexeme.token) e ∨
      ∃ base next exponent k m l r, front = base ++ next :: exponent ∧ next.token = .doubleStar ∧
        n = max k (m + 1) ∧ e = .binary .power l r ∧
        Derives .primary k (base.map Lexeme.token) l ∧
        Derives .signed m (exponent.map Lexeme.token) r := by
  generalize htokens : front.map Lexeme.token = tokens at h
  cases h with
  | primary h => exact .inl h
  | power hbase hexponent =>
    obtain ⟨base, after, rfl, rfl, hafter⟩ := List.map_eq_append_iff.1 htokens
    obtain ⟨next, exponent, rfl, hnext, rfl⟩ := List.map_eq_cons_iff.1 hafter
    exact .inr ⟨base, next, exponent, _, _, _, _, rfl, hnext, rfl, rfl, hbase, hexponent⟩

theorem fits_power_iff :
    Fits highest (levels + 1) (max m (n + 1)) (.binary .power l r) ↔
      Fits highest (levels + 1) m l ∧ Fits highest levels n r ∧
        (join .power (.of l) (.of r)).height ≤ highest := by
  rw [fits_binary_iff, fits_succ_iff]

theorem power_exact {signed sum : Rule} (hhighest : 1 ≤ highest)
    (hsigned : Exact highest levels .signed signed) (hsum : Exact highest levels .sum sum) :
    Exact highest (levels + 1) .power (power highest textEnd signed sum) := by
  have hprimary : Exact highest (levels + 1) .primary (primary textEnd sum) :=
    primary_exact hhighest hsum
  constructor
  case sound =>
    intro tokens rest tree h
    cases power_eq_iff.1 h with
    | alone hbase hstops =>
      obtain ⟨front, n, e, rfl, rfl, hderives, hfits, -⟩ := hprimary.sound hbase
      exact ⟨front, n, e, rfl, rfl, .primary hderives, hfits, hstops⟩
    | @raised after _ next _ _ _ hbase hnext hexponent hwithin =>
      obtain ⟨front, m, l, rfl, rfl, hl, hfitsl, -⟩ := hprimary.sound hbase
      obtain ⟨behind, n, r, rfl, rfl, hr, hfitsr, hstops⟩ := hsigned.sound hexponent
      obtain ⟨hle, hread⟩ := withinHeight_eq_ok_iff.1 hwithin
      cases hread
      refine ⟨front ++ next :: behind, max m (n + 1), .binary .power l r, by simp, rfl, ?_,
        fits_power_iff.2 ⟨hfitsl, hfitsr, hle⟩, hstops⟩
      simpa [hnext] using Derives.power hl hr
  case complete =>
    intro front rest n e h hstops hfits
    rcases power_forms h with h |
      ⟨base, next, exponent, k, m, l, r, rfl, hnext, rfl, rfl, hl, hr⟩
    · exact power_eq_iff.2 (.alone (hprimary.complete h (by simp) hfits) hstops)
    · obtain ⟨hfitsl, hfitsr, hheight⟩ := fits_power_iff.1 hfits
      have hnexts := Phrase.stopsAt_primary (next :: (exponent ++ rest))
      have hbase := hprimary.complete hl hnexts hfitsl
      have hexponent := hsigned.complete hr hstops hfitsr
      rw [List.append_assoc, List.cons_append]
      exact power_eq_iff.2 (.raised hbase hnext hexponent (withinHeight_of_le rest hheight))
  case strict =>
    intro front rest n e h hstops hfits
    rcases power_forms h with h |
      ⟨base, next, exponent, k, m, l, r, rfl, hnext, rfl, rfl, hl, hr⟩
    · obtain ⟨position, hread⟩ := hprimary.strict h (by simp) hfits
      exact ⟨position, power_eq_iff.2 (.baseFailed hread)⟩
    rw [List.append_assoc, List.cons_append]
    have hnexts := Phrase.stopsAt_primary (next :: (exponent ++ rest))
    by_cases hfitsl : Fits highest (levels + 1) k l
    case neg =>
      obtain ⟨position, hread⟩ := hprimary.strict hl hnexts hfitsl
      exact ⟨position, power_eq_iff.2 (.baseFailed hread)⟩
    have hbase := hprimary.complete hl hnexts hfitsl
    by_cases hfitsr : Fits highest levels m r
    case neg =>
      obtain ⟨position, hread⟩ := hsigned.strict hr hstops hfitsr
      exact ⟨position, power_eq_iff.2 (.exponentFailed hbase hnext hread)⟩
    have hexponent := hsigned.complete hr hstops hfitsr
    have hlt : highest < (join .power (.of l) (.of r)).height :=
      Nat.lt_of_not_ge fun hle => hfits (fits_power_iff.2 ⟨hfitsl, hfitsr, hle⟩)
    exact ⟨_, power_eq_iff.2 (.raised hbase hnext hexponent (withinHeight_of_lt rest hlt))⟩

/-! ### Signed operands -/

theorem not_sign_of_power {front rest : List Lexeme}
    (h : Derives .power n (front.map Lexeme.token) e) :
    ∀ next ∈ (front ++ rest).head?, ∀ op : UnaryOp, next.token ≠ op.token := by
  have hprimary : ∀ {front rest : List Lexeme} {n : Nat} {e : Expr},
      Derives .primary n (front.map Lexeme.token) e →
      ∀ next ∈ (front ++ rest).head?, ∀ op : UnaryOp, next.token ≠ op.token := by
    intro front rest n e h
    rcases primary_forms h with ⟨first, value, rfl, hfirst, -⟩ |
      ⟨first, inside, close, m, rfl, hfirst, -⟩
    all_goals
      intro next hnext op hop
      obtain rfl : first = next := by simpa using hnext
      rw [hfirst] at hop
      cases op <;> cases hop
  rcases power_forms h with h | ⟨base, next, exponent, k, m, l, r, rfl, -, -, -, hl, -⟩
  · exact hprimary h
  · rw [List.append_assoc]
    exact hprimary hl

theorem signed_forms {front : List Lexeme} (h : Derives .signed n (front.map Lexeme.token) e) :
    Derives .power n (front.map Lexeme.token) e ∨
      ∃ next operand m op e', front = next :: operand ∧ next.token = UnaryOp.token op ∧
        n = m + 1 ∧ e = .unary op e' ∧ Derives .signed m (operand.map Lexeme.token) e' := by
  generalize htokens : front.map Lexeme.token = tokens at h
  cases h with
  | unsigned h => exact .inl h
  | sign op h =>
    obtain ⟨next, operand, rfl, hnext, rfl⟩ := List.map_eq_cons_iff.1 htokens
    exact .inr ⟨next, operand, _, op, _, rfl, hnext, rfl, rfl, h⟩

theorem signed_exact {inner sum : Rule} (hhighest : 1 ≤ highest)
    (hinner : Exact highest levels .signed inner) (hsum : Exact highest levels .sum sum) :
    Exact highest (levels + 1) .signed (signed highest textEnd inner sum) := by
  have hpower : Exact highest (levels + 1) .power (power highest textEnd inner sum) :=
    power_exact hhighest hinner hsum
  constructor
  case sound =>
    intro tokens rest tree h
    cases signed_eq_iff.1 h with
    | unsigned _ hread =>
      obtain ⟨front, n, e, rfl, rfl, hderives, hfits, hstops⟩ := hpower.sound hread
      exact ⟨front, n, e, rfl, rfl, .unsigned hderives, hfits, hstops⟩
    | @sign next _ _ op _ _ hnext hoperand hwithin =>
      obtain ⟨front, n, e, rfl, rfl, hderives, hfits, hstops⟩ := hinner.sound hoperand
      obtain ⟨hle, hread⟩ := withinHeight_eq_ok_iff.1 hwithin
      cases hread
      refine ⟨next :: front, n + 1, .unary op e, rfl, rfl, ?_, fits_unary_iff.2 ⟨hfits, hle⟩,
        hstops⟩
      simpa [hnext] using Derives.sign op hderives
  case complete =>
    intro front rest n e h hstops hfits
    rcases signed_forms h with h | ⟨next, operand, m, op, e, rfl, hnext, rfl, rfl, hderives⟩
    · exact signed_eq_iff.2 (.unsigned (not_sign_of_power h) (hpower.complete h hstops hfits))
    · obtain ⟨hfits, hheight⟩ := fits_unary_iff.1 hfits
      have hoperand := hinner.complete hderives hstops hfits
      exact signed_eq_iff.2 (.sign hnext hoperand (withinHeight_of_le rest hheight))
  case strict =>
    intro front rest n e h hstops hfits
    rcases signed_forms h with h | ⟨next, operand, m, op, e, rfl, hnext, rfl, rfl, hderives⟩
    · obtain ⟨position, hread⟩ := hpower.strict h hstops hfits
      exact ⟨position, signed_eq_iff.2 (.unsigned (not_sign_of_power h) hread)⟩
    by_cases hfitse : Fits highest levels m e
    case neg =>
      obtain ⟨position, hread⟩ := hinner.strict hderives hstops hfitse
      exact ⟨position, signed_eq_iff.2 (.operandFailed hnext hread)⟩
    have hoperand := hinner.complete hderives hstops hfitse
    have hlt : highest < e.height + 1 :=
      Nat.lt_of_not_ge fun hle => hfits (fits_unary_iff.2 ⟨hfitse, hle⟩)
    exact ⟨_, signed_eq_iff.2 (.sign hnext hoperand (withinHeight_of_lt rest hlt))⟩

/-! ### Chains -/

/-- **A kind of phrase that is a chain**: of operands of another kind, joined by operators that do
not go on with an operand. -/
structure ChainsOf (phrase operand : Phrase) (isOp : BinaryOp → Bool)
    (op? : Token → Option BinaryOp) : Prop where
  op?_eq_some {token : Token} {op : BinaryOp} :
    op? token = some op ↔ isOp op = true ∧ token = op.token
  derives_iff {n : Nat} {tokens : List Token} {e : Expr} :
    Derives phrase n tokens e ↔ Chain isOp (Derives operand) n tokens e
  extendedBy_eq (op : BinaryOp) : phrase.extendedBy op = (isOp op || operand.extendedBy op)
  not_extendedBy {op : BinaryOp} : isOp op = true → operand.extendedBy op = false

theorem product_chainsOf :
    ChainsOf .product .signed BinaryOp.isMultiplicative productOp? where
  op?_eq_some := productOp?_eq_some_iff
  derives_iff := Derives.product_iff
  extendedBy_eq op := by cases op <;> rfl
  not_extendedBy {op} h := by cases op <;> first | rfl | cases h

theorem sum_chainsOf : ChainsOf .sum .product BinaryOp.isAdditive sumOp? where
  op?_eq_some := sumOp?_eq_some_iff
  derives_iff := Derives.sum_iff
  extendedBy_eq op := by cases op <;> rfl
  not_extendedBy {op} h := by cases op <;> first | rfl | cases h

namespace ChainsOf

variable {phrase operandPhrase : Phrase} {isOp : BinaryOp → Bool} {op? : Token → Option BinaryOp}
  {operand : Rule} {rest : List Lexeme}

/-- A chain ends where its last operand ends and no operator of the chain follows. -/
theorem stopsAt_iff (hchains : ChainsOf phrase operandPhrase isOp op?) :
    phrase.StopsAt rest ↔
      operandPhrase.StopsAt rest ∧ ∀ next ∈ rest.head?, op? next.token = none := by
  constructor
  · intro h
    refine ⟨fun next hnext op hop => ?_, fun next hnext => ?_⟩
    · have hphrase := h next hnext op hop
      rw [hchains.extendedBy_eq, Bool.or_eq_false_iff] at hphrase
      exact hphrase.2
    · refine Option.eq_none_iff_forall_ne_some.2 fun op hop => ?_
      obtain ⟨hisOp, htoken⟩ := hchains.op?_eq_some.1 hop
      have hphrase := h next hnext op htoken
      rw [hchains.extendedBy_eq, hisOp] at hphrase
      cases hphrase
  · rintro ⟨hoperand, hnone⟩ next hnext op hop
    rw [hchains.extendedBy_eq, hoperand next hnext op hop, Bool.or_false]
    cases hisOp : isOp op with
    | false => rfl
    | true =>
      have hsome := hnone next hnext
      rw [hchains.op?_eq_some.2 ⟨hisOp, hop⟩] at hsome
      cases hsome

theorem operand_stopsAt (hchains : ChainsOf phrase operandPhrase isOp op?) {next : Lexeme}
    {op : BinaryOp} (hisOp : isOp op = true) (hnext : next.token = op.token) (rest : List Lexeme) :
    operandPhrase.StopsAt (next :: rest) := by
  refine Phrase.stopsAt_cons.2 fun op' hop' => ?_
  obtain rfl : op = op' := BinaryOp.token_inj.1 (hnext ▸ hop')
  exact hchains.not_extendedBy hisOp

/-- What a chain reads after `front` makes `front` longer by whole links. -/
theorem chainRest_sound (hchains : ChainsOf phrase operandPhrase isOp op?)
    (hoperand : Exact highest levels operandPhrase operand) {tokens front : List Lexeme}
    {tree : Subtree} (hl : Derives phrase m (front.map Lexeme.token) l)
    (hfits : Fits highest levels m l) (hstops : operandPhrase.StopsAt tokens)
    (h : chainRest highest textEnd op? operand (.of l) tokens = .ok (tree, rest)) :
    ∃ more n e, tokens = more ++ rest ∧ tree = .of e ∧
      Derives phrase n ((front ++ more).map Lexeme.token) e ∧ Fits highest levels n e ∧
        phrase.StopsAt rest := by
  -- The tokens left become fewer with every link.
  induction hlength : tokens.length using Nat.strongRecOn generalizing tokens front m l with
  | ind length ih =>
    cases (chainRest_eq_iff hoperand.shrinks).1 h with
    | stop hnone =>
      exact ⟨[], m, l, rfl, rfl, by simpa using hl, hfits, hchains.stopsAt_iff.2 ⟨hstops, hnone⟩⟩
    | @link next _ _ op _ _ hnext hread hle hagain =>
      obtain ⟨hisOp, htoken⟩ := hchains.op?_eq_some.1 hnext
      obtain ⟨behind, n, r, rfl, rfl, hr, hfitsr, hstops⟩ := hoperand.sound hread
      have hlink : Derives phrase (max m n) ((front ++ next :: behind).map Lexeme.token)
          (.binary op l r) := by
        simpa [htoken] using hchains.derives_iff.2 (.link hisOp (hchains.derives_iff.1 hl) hr)
      rw [List.length_cons, List.length_append] at hlength
      obtain ⟨more, k, e, rfl, rfl, he, hfitse, hstops⟩ :=
        ih _ (by omega) hlink (fits_binary_iff.2 ⟨hfits, hfitsr, hle⟩) hstops hagain rfl
      exact ⟨next :: (behind ++ more), k, e, by simp, rfl, by simpa using he, hfitse, hstops⟩

/-- A chain of operands is read to its end, if it is within the limits, and then gone on with. -/
theorem chain_reads (hchains : ChainsOf phrase operandPhrase isOp op?) (textEnd : Nat)
    (hoperand : Exact highest levels operandPhrase operand) {front : List Lexeme}
    (h : Chain isOp (Derives operandPhrase) n (front.map Lexeme.token) e)
    (hstops : operandPhrase.StopsAt rest) :
    (Fits highest levels n e → chain highest textEnd op? operand (front ++ rest) =
      chainRest highest textEnd op? operand (.of e) rest) ∧
    (¬ Fits highest levels n e → ∃ position, chain highest textEnd op? operand (front ++ rest) =
      .error (.malformed .tooDeep position)) := by
  generalize htokens : front.map Lexeme.token = tokens at h
  induction h generalizing front rest with
  | single h =>
    subst htokens
    refine ⟨fun hfits => chain_of_ok (hoperand.complete h hstops hfits), fun hfits => ?_⟩
    obtain ⟨position, hread⟩ := hoperand.strict h hstops hfits
    exact ⟨position, chain_of_error hread⟩
  | @link op m n left right l r hisOp hleft hright ih =>
    obtain ⟨front, after, rfl, rfl, hafter⟩ := List.map_eq_append_iff.1 htokens
    obtain ⟨next, behind, rfl, hnext, rfl⟩ := List.map_eq_cons_iff.1 hafter
    rw [List.append_assoc, List.cons_append]
    obtain ⟨hreads, hfails⟩ := ih (hchains.operand_stopsAt hisOp hnext (behind ++ rest)) rfl
    have hop : op? next.token = some op := hchains.op?_eq_some.2 ⟨hisOp, hnext⟩
    constructor
    · intro hfits
      obtain ⟨hfitsl, hfitsr, hheight⟩ := fits_binary_iff.1 hfits
      rw [hreads hfitsl, chainRest_eq_iff hoperand.shrinks]
      exact .link hop (hoperand.complete hright hstops hfitsr) hheight rfl
    · intro hfits
      by_cases hfitsl : Fits highest levels m l
      case neg => exact hfails hfitsl
      rw [hreads hfitsl]
      by_cases hfitsr : Fits highest levels n r
      case neg =>
        obtain ⟨position, hread⟩ := hoperand.strict hright hstops hfitsr
        exact ⟨position, (chainRest_eq_iff hoperand.shrinks).2 (.operandFailed hop hread)⟩
      have hlt : highest < (join op (.of l) (.of r)).height :=
        Nat.lt_of_not_ge fun hle => hfits (fits_binary_iff.2 ⟨hfitsl, hfitsr, hle⟩)
      exact ⟨_, (chainRest_eq_iff hoperand.shrinks).2
        (.tooHigh hop (hoperand.complete hright hstops hfitsr) hlt)⟩

theorem chain_exact (hchains : ChainsOf phrase operandPhrase isOp op?)
    (hoperand : Exact highest levels operandPhrase operand) :
    Exact highest levels phrase (chain highest textEnd op? operand) where
  sound := by
    intro tokens rest tree h
    cases hread : operand tokens with
    | error err =>
      rw [chain_of_error hread] at h
      cases h
    | ok read =>
      obtain ⟨left, after⟩ := read
      rw [chain_of_ok hread] at h
      obtain ⟨front, m, l, rfl, rfl, hl, hfits, hstops⟩ := hoperand.sound hread
      obtain ⟨more, n, e, rfl, rfl, he, hfitse, hstops⟩ :=
        hchains.chainRest_sound hoperand (hchains.derives_iff.2 (.single hl)) hfits hstops h
      exact ⟨front ++ more, n, e, by simp, rfl, he, hfitse, hstops⟩
  complete := by
    intro front rest n e h hstops hfits
    obtain ⟨hoperandStops, hnone⟩ := hchains.stopsAt_iff.1 hstops
    rw [(hchains.chain_reads _ hoperand (hchains.derives_iff.1 h) hoperandStops).1 hfits,
      chainRest_eq_iff hoperand.shrinks]
    exact .stop hnone
  strict := by
    intro front rest n e h hstops
    exact (hchains.chain_reads _ hoperand (hchains.derives_iff.1 h)
      (hchains.stopsAt_iff.1 hstops).1).2

end ChainsOf

/-! ## All rules are exact -/

theorem sumOf_exact {signed : Rule} (h : Exact highest levels .signed signed) :
    Exact highest levels .sum (sumOf highest textEnd signed) :=
  sum_chainsOf.chain_exact (product_chainsOf.chain_exact h)

theorem signedAt_exact (hhighest : 1 ≤ highest) (textEnd levels : Nat) :
    Exact highest (levels + 1) .signed (signedAt highest textEnd levels) := by
  induction levels with
  | zero =>
    exact signed_exact hhighest (tooDeep_exact highest textEnd .signed)
      (tooDeep_exact highest textEnd .sum)
  | succ levels ih => exact signed_exact hhighest ih (sumOf_exact ih)

theorem sumAt_exact (hhighest : 1 ≤ highest) (textEnd levels : Nat) :
    Exact highest (levels + 1) .sum (sumAt highest textEnd levels) :=
  sumOf_exact (signedAt_exact hhighest textEnd levels)

/-! ## Whole expressions -/

theorem derives_of_parseWithin {tokens : List Lexeme} (hhighest : 1 ≤ highest)
    (h : parseWithin highest textEnd levels tokens = .ok e) :
    ∃ n ≤ levels, Derives .sum n (tokens.map Lexeme.token) e ∧ e.height ≤ highest := by
  rw [parseWithin] at h
  cases hsum : sumAt highest textEnd levels tokens with
  | error err =>
    rw [hsum] at h
    cases h
  | ok read =>
    obtain ⟨tree, rest⟩ := read
    obtain ⟨front, n, e', rfl, rfl, hderives, hfits, -⟩ := (sumAt_exact hhighest _ _).sound hsum
    simp only [hsum, bind, Except.bind] at h
    split at h
    case h_1 =>
      cases h
      exact ⟨n, Nat.le_of_lt_succ hfits.nesting_lt, by simpa using hderives, hfits.height_le⟩
    case h_2 => cases h

theorem parseWithin_of_derives (textEnd : Nat) {tokens : List Lexeme} (hhighest : 1 ≤ highest)
    (h : Derives .sum n (tokens.map Lexeme.token) e) (hnesting : n ≤ levels)
    (hheight : e.height ≤ highest) : parseWithin highest textEnd levels tokens = .ok e := by
  have hread : sumAt highest textEnd levels (tokens ++ []) = .ok (.of e, []) :=
    (sumAt_exact hhighest textEnd levels).complete h (by simp) ⟨Nat.lt_succ_of_le hnesting, hheight⟩
  rw [List.append_nil] at hread
  simp [parseWithin, hread, bind, Except.bind, Subtree.of]

/-- An expression beyond the limits is refused as too deep, and as nothing else. -/
theorem parseWithin_of_exceeds (textEnd : Nat) {tokens : List Lexeme} (hhighest : 1 ≤ highest)
    (h : Derives .sum n (tokens.map Lexeme.token) e)
    (hexceeds : ¬ (n ≤ levels ∧ e.height ≤ highest)) :
    ∃ position,
      parseWithin highest textEnd levels tokens = .error (.malformed .tooDeep position) := by
  obtain ⟨position, hread⟩ := (sumAt_exact hhighest textEnd levels).strict h
    (Phrase.stopsAt_nil .sum) fun hfits =>
      hexceeds ⟨Nat.le_of_lt_succ hfits.nesting_lt, hfits.height_le⟩
  rw [List.append_nil] at hread
  exact ⟨position, by simp [parseWithin, hread, bind, Except.bind]⟩

/-- An expression within the limits is read to its end, and what cannot follow it is refused. -/
theorem parseWithin_refused (textEnd : Nat) {front : List Lexeme} {next : Lexeme}
    (hhighest : 1 ≤ highest) (h : Derives .sum n (front.map Lexeme.token) e) (hnesting : n ≤ levels)
    (hheight : e.height ≤ highest) (hnext : ∀ op : BinaryOp, next.token ≠ op.token)
    (after : List Lexeme) :
    parseWithin highest textEnd levels (front ++ next :: after) = .error next.refused := by
  have hread : sumAt highest textEnd levels (front ++ next :: after) =
      .ok (.of e, next :: after) :=
    (sumAt_exact hhighest textEnd levels).complete h (Phrase.stopsAt_of_ne_operator _ after hnext)
      ⟨Nat.lt_succ_of_le hnesting, hheight⟩
  simp [parseWithin, hread, bind, Except.bind]

end Calculator.Parser

namespace Calculator

/-! ## One tree for each sequence of tokens -/

namespace Derives

variable {m n : Nat} {tokens : List Token} {e e' : Expr}

/-- **The grammar is unambiguous**: limits large enough for both trees let the parser answer for
both. -/
theorem tree_unique (h : Derives .sum m tokens e) (h' : Derives .sum n tokens e') : e = e' := by
  rw [← map_token_placed tokens] at h h'
  have hhighest : 1 ≤ max e.height e'.height := Nat.le_trans e.height_pos (Nat.le_max_left _ _)
  have hparse := Parser.parseWithin_of_derives 0 hhighest h (Nat.le_max_left m n)
    (Nat.le_max_left _ _)
  have hparse' := Parser.parseWithin_of_derives 0 hhighest h' (Nat.le_max_right m n)
    (Nat.le_max_right _ _)
  rw [hparse] at hparse'
  cases hparse'
  rfl

/-- With fewer levels than the one derivation needs the parser refuses, so the other one needs no
fewer. -/
theorem nesting_le (h : Derives .sum m tokens e) (h' : Derives .sum n tokens e') : m ≤ n := by
  rw [← map_token_placed tokens] at h h'
  refine Nat.le_of_not_lt fun hlt => ?_
  have hparse := Parser.parseWithin_of_derives 0 e'.height_pos h' (Nat.le_refl n)
    (Nat.le_refl _)
  have hexceeds : ¬ (m ≤ n ∧ e.height ≤ e'.height) := fun hfits => Nat.not_le_of_lt hlt hfits.1
  obtain ⟨position, hrefused⟩ := Parser.parseWithin_of_exceeds 0 e'.height_pos h hexceeds
  rw [hparse] at hrefused
  cases hrefused

theorem nesting_unique (h : Derives .sum m tokens e) (h' : Derives .sum n tokens e') : m = n :=
  Nat.le_antisymm (h.nesting_le h') (h'.nesting_le h)

end Derives

namespace Parser

/-- **The parser decides the grammar within its limits**, and the grammar gives a sequence of tokens
no second tree and no second nesting. -/
theorem parse_eq_ok_iff :
    (∀ (textEnd : Nat) (tokens : List Lexeme) (e : Expr),
      parse textEnd tokens = .ok e ↔
        ∃ n ≤ 200, Derives .sum n (tokens.map Lexeme.token) e ∧ e.height ≤ 1000) ∧
    ∀ {tokens : List Token} {m n : Nat} {e e' : Expr},
      Derives .sum m tokens e → Derives .sum n tokens e' → e = e' ∧ m = n := by
  refine ⟨fun textEnd tokens e => ⟨derives_of_parseWithin (by decide), ?_⟩, fun h h' => ?_⟩
  · rintro ⟨n, hnesting, hderives, hheight⟩
    exact parseWithin_of_derives textEnd (by decide) hderives hnesting hheight
  · exact ⟨h.tree_unique h', h.nesting_unique h'⟩

end Parser

end Calculator
