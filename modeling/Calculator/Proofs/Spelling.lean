import Calculator.Proofs.Rendering
import Mathlib.Data.List.Basic

/-!
# How tokens are spelled

`Token.Covers` says which characters a token stands for, token by token and without the scan: a
numeral and a word reach as far as they go on, a symbol is the longest one of a table that stands
there, a quoted text reaches to its closing quote, and a character by itself is refused only where
nothing else starts.  Unlike `Token.Written` it is about every token, also those of other languages.

The relation takes in what follows, since a token may end earlier in another text: `=` is one
symbol in front of a blank and half of one in front of `=`.  With what follows given, it leaves no
choice.

* `Token.coversFront_first`: the first token of every text covers what the scan takes for it.
* `Token.Covers.first_eq`: whatever is spelled like a token is taken for that token.
-/

namespace Calculator

/-! ## Symbols -/

namespace Token

/-- **The symbols**, of arithmetic and of other languages, and what they are taken for. -/
def symbols : List (List Char × Token) :=
  [(['+'], plus), (['-'], minus), (['*'], star), (['*', '*'], doubleStar), (['/'], slash),
    (['/', '/'], doubleSlash), (['%'], percent), (['('], leftParen), ([')'], rightParen),
    (['['], foreign .collection), ([']'], foreign .collection), (['{'], foreign .collection),
    (['}'], foreign .collection), ([','], foreign .collection), ([':'], foreign .collection),
    ([':', '='], foreign .assignment), (['='], foreign .assignment),
    (['=', '='], foreign .comparison), (['!', '='], foreign .comparison),
    (['<'], foreign .comparison), (['<', '='], foreign .comparison),
    (['>'], foreign .comparison), (['>', '='], foreign .comparison),
    (['!'], foreign .booleanOperator), (['&', '&'], foreign .booleanOperator),
    (['|', '|'], foreign .booleanOperator), (['&'], foreign .bitwiseOperator),
    (['|'], foreign .bitwiseOperator), (['^'], foreign .bitwiseOperator),
    (['~'], foreign .bitwiseOperator), (['<', '<'], foreign .bitwiseOperator),
    (['>', '>'], foreign .bitwiseOperator)]

/-- The characters that make another symbol of the one that is written `c`. -/
def extensions (c : Char) : List Char :=
  symbols.filterMap fun entry => match entry.1 with
    | [first, second] => if first = c then some second else none
    | _ => none

/-- **No longer symbol** stands at the place of a symbol. -/
def IsLongest (symbol behind : List Char) : Prop :=
  ∀ longer ∈ symbols, longer.1 <+: symbol ++ behind → longer.1.length ≤ symbol.length

variable {c d : Char} {token : Token} {text rest behind : List Char}

theorem symbols_length : ∀ entry ∈ symbols, entry.1.length = 1 ∨ entry.1.length = 2 := by decide

theorem symbols_unique :
    ∀ entry ∈ symbols, ∀ other ∈ symbols, entry.1 = other.1 → entry = other := by decide

theorem symbols_head : ∀ entry ∈ symbols, ∀ c ∈ entry.1.head?,
    isSeparator c = false ∧ c.isDigit = false ∧ isWordStart c = false ∧ c ≠ '.' ∧ c ≠ '\'' ∧
      c ≠ '"' := by
  -- A test of the one character, since `∀ c` can also be decided by trying every character.
  have hall : ∀ entry ∈ symbols, entry.1.head?.all fun c =>
      !isSeparator c && !c.isDigit && !isWordStart c && c != '.' && c != '\'' && c != '"' := by
    decide
  intro entry hentry c hc
  simpa [and_assoc] using (Option.all_eq_true _ _).1 (hall entry hentry) c hc

theorem isLongest_one (h : ∀ d ∈ extensions c, behind.head? ≠ some d) : IsLongest [c] behind := by
  intro longer hmem hprefix
  rcases symbols_length longer hmem with hone | htwo
  · exact Nat.le_of_eq hone
  · obtain ⟨first, second, hlonger⟩ := List.length_eq_two.1 htwo
    rw [hlonger] at hprefix
    obtain ⟨rfl, hnext⟩ := List.cons_prefix_cons.1 hprefix
    obtain ⟨after, rfl⟩ := hnext
    have hextension : second ∈ extensions first :=
      List.mem_filterMap.2 ⟨longer, hmem, by simp [hlonger]⟩
    exact absurd rfl (h second hextension)

theorem isLongest_two : IsLongest [c, d] behind := by
  intro longer hmem _
  rcases symbols_length longer hmem with hone | htwo
  · simp [hone]
  · simp [htwo]

end Token

/-! ## Tokens and the characters they cover -/

/-- **A quoted text**: from a quote to the next one of its kind, or to the end of the text where
there is no other. -/
inductive Quoted : List Char → List Char → Prop where
  | closed {quote : Char} {inside behind : List Char} : quote = '\'' ∨ quote = '"' →
    quote ∉ inside → Quoted (quote :: (inside ++ [quote])) behind
  | unclosed {quote : Char} {inside : List Char} : quote = '\'' ∨ quote = '"' →
    quote ∉ inside → Quoted (quote :: inside) []

namespace Token

/-- Whether a token starts with `c` whatever follows. -/
def startsWith (c : Char) : Bool :=
  c.isDigit || isWordStart c || c == '\'' || c == '"' || symbols.any (some c == ·.1.head?)

/-- **What a token covers** in a text that goes on behind it. -/
inductive Covers : Token → List Char → List Char → Prop where
  | number {run behind : List Char} {q : Rat} : Numeral.Reads run q →
    (∀ c ∈ behind.head?, c.isDigit = false ∧ (c = '.' → '.' ∈ run)) →
    Covers (.ofRun run) run behind
  | word {c : Char} {more behind : List Char} : isWordStart c = true →
    (∀ d ∈ more, isWordPart d = true) → (∀ d ∈ behind.head?, isWordPart d = false) →
    Covers (.foreign (.ofWord (c :: more) (opensCall behind))) (c :: more) behind
  | symbol {token : Token} {symbol behind : List Char} : (symbol, token) ∈ symbols →
    IsLongest symbol behind → Covers token symbol behind
  /-- A point is an access where a name follows. -/
  | access {behind : List Char} : behind.head?.any isWordStart = true →
    Covers (.foreign .attributeAccess) ['.'] behind
  | quoted {text behind : List Char} : Quoted text behind →
    Covers (.foreign .stringLiteral) text behind
  | unrecognized {c : Char} {behind : List Char} : isSeparator c = false → startsWith c = false →
    (c = '.' → ∀ d ∈ behind.head?, d.isDigit = false ∧ isWordStart d = false) →
    Covers (.invalid (.unrecognized c)) [c] behind

/-- **A token covers the front of a text** that starts with `c`: this character and so many more. -/
def CoversFront (token : Token) (count : Nat) (c : Char) (rest : List Char) : Prop :=
  ∃ more behind, more ++ behind = rest ∧ more.length = count ∧ token.Covers (c :: more) behind

variable {c d : Char} {token : Token} {text rest behind : List Char}

/-! ## What the scan takes -/

theorem head?_dropWhile_eq_false {p : Char → Bool} :
    ∀ c ∈ (text.dropWhile p).head?, p c = false := by
  intro c hc
  have h := List.head?_dropWhile_not p text
  rw [hc] at h
  exact h

/-- **Where a number starts, a numeral stands**, and the run of digits and points is all of it. -/
theorem exists_reads_numeralRun
    (h : c.isDigit = true ∨ c = '.' ∧ rest.head?.any Char.isDigit = true) :
    ∃ q behind, Numeral.Reads (numeralRun (c :: rest)) q ∧
      numeralRun (c :: rest) ++ behind = c :: rest ∧
      ∀ d ∈ behind.head?, d.isDigit = false ∧ (d = '.' → '.' ∈ numeralRun (c :: rest)) := by
  have hsplit : (c :: rest).takeWhile Char.isDigit ++ (c :: rest).dropWhile Char.isDigit =
      c :: rest := List.takeWhile_append_dropWhile
  have hwhole : ∀ d ∈ (c :: rest).takeWhile Char.isDigit, d.isDigit = true :=
    List.all_eq_true.1 List.all_takeWhile
  have hend : ∀ d ∈ ((c :: rest).dropWhile Char.isDigit).head?, d.isDigit = false :=
    head?_dropWhile_eq_false
  rw [numeralRun]
  split
  case h_1 fraction hdrop =>
    rw [hdrop] at hsplit
    refine ⟨_, fraction.dropWhile Char.isDigit,
      .point hwhole (List.all_eq_true.1 List.all_takeWhile) ?_, ?_, ?_⟩
    · rcases h with hdigit | ⟨rfl, hnext⟩
      · simp [hdigit]
      · obtain ⟨d, hd, hdigit⟩ := (Option.any_eq_true _ _).1 hnext
        obtain ⟨after, rfl⟩ := List.head?_eq_some_iff.1 hd
        cases hdrop
        simp [hdigit]
    · rw [List.append_assoc, List.cons_append, List.takeWhile_append_dropWhile, hsplit]
    · intro d hd
      exact ⟨head?_dropWhile_eq_false d hd, fun _ => by simp⟩
  case h_2 hnone =>
    refine ⟨_, _, .whole ?_ hwhole, hsplit, ?_⟩
    · rcases h with hdigit | ⟨rfl, -⟩
      · simp [hdigit]
      · exact absurd rfl (hnone rest)
    · intro d hd
      refine ⟨hend d hd, ?_⟩
      rintro rfl
      obtain ⟨after, hafter⟩ := List.head?_eq_some_iff.1 hd
      exact absurd hafter (hnone after)

theorem coversFront_one {longer : List Char} (hmem : ([c], token) ∈ symbols)
    (h : ∀ d ∈ longer, rest.head? ≠ some d) (hlonger : extensions c = longer) :
    CoversFront token 0 c rest :=
  ⟨[], rest, rfl, rfl, .symbol hmem (isLongest_one (hlonger ▸ h))⟩

theorem coversFront_two (hnext : rest.head? = some d) (hmem : ([c, d], token) ∈ symbols) :
    CoversFront token 1 c rest := by
  obtain ⟨after, rfl⟩ := List.head?_eq_some_iff.1 hnext
  exact ⟨[d], after, rfl, rfl, .symbol hmem isLongest_two⟩

theorem coversFront_quoted (h : c = '\'' ∨ c = '"') :
    CoversFront (.foreign .stringLiteral)
      (min ((rest.takeWhile (· != c)).length + 1) rest.length) c rest := by
  have hsplit : rest.takeWhile (· != c) ++ rest.dropWhile (· != c) = rest :=
    List.takeWhile_append_dropWhile
  have hinside : c ∉ rest.takeWhile (· != c) := fun hmem => by
    simpa using List.all_eq_true.1 List.all_takeWhile c hmem
  have hend : ∀ d ∈ (rest.dropWhile (· != c)).head?, (d != c) = false := head?_dropWhile_eq_false
  generalize rest.takeWhile (· != c) = inside at hsplit hinside ⊢
  generalize rest.dropWhile (· != c) = behind at hsplit hend
  subst hsplit
  cases behind with
  | nil => exact ⟨inside, [], rfl, by simp, .quoted (.unclosed h hinside)⟩
  | cons d behind =>
    obtain rfl : d = c := by simpa using hend d rfl
    exact ⟨inside ++ [d], behind, by simp, by simp, .quoted (.closed h hinside)⟩

theorem coversFront_relation (h : c = '=' ∨ c = '!' ∨ c = '<' ∨ c = '>') :
    CoversFront (.foreign (Construct.ofRelation c rest.head?).1)
      (Construct.ofRelation c rest.head?).2 c rest := by
  generalize hrelation : Construct.ofRelation c rest.head? = relation
  simp only [Construct.ofRelation, beq_iff_eq] at hrelation
  split at hrelation
  case isTrue hequal =>
    subst hrelation
    refine coversFront_two hequal ?_
    rcases h with rfl | rfl | rfl | rfl <;> decide
  case isFalse hequal =>
    rcases h with rfl | rfl | rfl | rfl <;> simp only [Char.reduceEq, reduceIte] at hrelation
    -- the signs that are never doubled
    case inl | inr.inl =>
      subst hrelation
      exact coversFront_one (by decide) (List.forall_mem_singleton.2 hequal) rfl
    case inr.inr.inl | inr.inr.inr =>
      split at hrelation
      case isTrue hdouble =>
        subst hrelation
        exact coversFront_two hdouble (by decide)
      case isFalse hdouble =>
        subst hrelation
        exact coversFront_one (by decide)
          (List.forall_mem_cons.2 ⟨hequal, List.forall_mem_singleton.2 hdouble⟩) rfl

/-- **The first token covers what is taken for it.** -/
theorem coversFront_first (hseparator : isSeparator c = false) (rest : List Char) :
    CoversFront (first c rest).1 (first c rest).2 c rest := by
  generalize hfirst : first c rest = front
  simp only [first] at hfirst
  split at hfirst
  case isTrue hnumber =>
    subst hfirst
    obtain ⟨q, behind, hreads, hsplit, hend⟩ :=
      exists_reads_numeralRun (by simpa using hnumber : c.isDigit = true ∨ _)
    generalize numeralRun (c :: rest) = run at hreads hsplit hend ⊢
    obtain ⟨d, more, rfl⟩ := List.exists_cons_of_ne_nil hreads.ne_nil
    obtain ⟨rfl, rfl⟩ := List.cons.inj hsplit
    exact ⟨more, behind, rfl, rfl, .number hreads hend⟩
  case isFalse =>
    split at hfirst
    case isTrue hword =>
      subst hfirst
      exact ⟨_, _, List.takeWhile_append_dropWhile, rfl,
        .word hword (List.all_eq_true.1 List.all_takeWhile) head?_dropWhile_eq_false⟩
    case isFalse =>
      split at hfirst
      -- the point
      case h_1 =>
        split at hfirst
        case isTrue hnext =>
          subst hfirst
          exact ⟨[], rest, rfl, rfl, .access hnext⟩
        case isFalse hnext =>
          subst hfirst
          refine ⟨[], rest, rfl, rfl, .unrecognized hseparator (by decide) fun _ d hd => ?_⟩
          simp_all
      case h_9 | h_10 =>
        subst hfirst
        exact coversFront_quoted (by simp)
      -- the symbols that another one starts with
      case h_4 | h_5 | h_16 | h_21 | h_22 =>
        split at hfirst
        case isTrue hnext =>
          subst hfirst
          exact coversFront_two (beq_iff_eq.1 hnext) (by decide)
        case isFalse hnext =>
          subst hfirst
          exact coversFront_one (by decide) (List.forall_mem_singleton.2 (by simpa using hnext)) rfl
      case h_17 | h_18 | h_19 | h_20 =>
        subst hfirst
        exact coversFront_relation (by simp)
      case h_25 =>
        subst hfirst
        refine ⟨[], rest, rfl, rfl, .unrecognized hseparator ?_ (absurd · ‹_›)⟩
        simp_all [startsWith, symbols]
      -- the other symbols
      all_goals
        subst hfirst
        exact coversFront_one (by decide) (List.forall_mem_nil _) rfl

/-! ## What is spelled like a token -/

theorem ne_of_isWordStart (h : isWordStart c = true) (hd : isAllowed d = true) : c ≠ d := by
  rintro rfl
  rw [not_isWordStart_of_isAllowed hd] at h
  cases h

theorem isDigit_eq_false_of_isWordStart (h : isWordStart c = true) : c.isDigit = false :=
  Bool.eq_false_iff.2 fun hdigit => ne_of_isWordStart h (isAllowed_of_isDigit hdigit) rfl

theorem first_of_word (hstart : isWordStart c = true) (hmore : ∀ d ∈ text, isWordPart d = true)
    (hend : ∀ d ∈ rest.head?, isWordPart d = false) :
    first c (text ++ rest) =
      (.foreign (.ofWord (c :: text) (opensCall rest)), text.length) := by
  obtain ⟨htake, hdrop⟩ := span_exact hmore rest hend
  have hpoint : c ≠ '.' := ne_of_isWordStart hstart rfl
  have hnumber : (c.isDigit || (c == '.' && (text ++ rest).head?.any Char.isDigit)) = false := by
    simp [isDigit_eq_false_of_isWordStart hstart, hpoint]
  simp only [first, hnumber, hstart, htake, hdrop]
  rfl

theorem first_of_access (h : rest.head?.any isWordStart = true) :
    first '.' rest = (.foreign .attributeAccess, 0) := by
  obtain ⟨d, hd, hstart⟩ := (Option.any_eq_true _ _).1 h
  have hdigit : rest.head?.any Char.isDigit = false := by
    rw [hd]
    exact isDigit_eq_false_of_isWordStart hstart
  simp only [first, hdigit, Bool.and_false, Bool.or_false, h]
  rfl

theorem first_of_quoted (h : Quoted (c :: text) rest) :
    first c (text ++ rest) = (.foreign .stringLiteral, text.length) := by
  have hinside : ∀ {inside : List Char}, c ∉ inside → ∀ d ∈ inside, (d != c) = true :=
    fun hnot d hd => bne_iff_ne.2 fun heq => hnot (heq ▸ hd)
  cases h with
  | @closed _ inside _ hquote hnot =>
    have hclosing : inside ++ [c] ++ rest = inside ++ c :: rest := by simp
    rw [first_quote hquote, hclosing, (span_exact (hinside hnot) (c :: rest) (by simp)).1]
    simp
  | unclosed hquote hnot =>
    rw [first_quote hquote, (span_exact (hinside hnot) [] (by simp)).1, List.append_nil,
      Nat.min_eq_right (Nat.le_succ _)]

theorem first_of_unrecognized (hstarts : startsWith c = false)
    (hpoint : c = '.' → ∀ d ∈ rest.head?, d.isDigit = false ∧ isWordStart d = false) :
    first c rest = (.invalid (.unrecognized c), 0) := by
  have hclasses := hstarts
  simp only [startsWith, Bool.or_eq_false_iff] at hclasses
  obtain ⟨⟨⟨⟨hdigit, hword⟩, -⟩, -⟩, -⟩ := hclasses
  have hnumber : (c.isDigit || (c == '.' && rest.head?.any Char.isDigit)) = false := by
    rw [hdigit, Bool.false_or, Bool.and_eq_false_imp]
    intro hc
    cases hnext : rest.head? with
    | none => rfl
    | some d => exact (hpoint (eq_of_beq hc) d hnext).1
  simp only [first, hnumber, hword, Bool.false_eq_true, if_false]
  split
  case h_1 =>
    cases hnext : rest.head? with
    | none => rfl
    | some d => exact if_neg (by simp [(hpoint rfl d hnext).2])
  case h_25 => rfl
  all_goals exact absurd hstarts (by decide)

/-- **The longest symbol is taken.**  A token that starts with the character of a symbol is a symbol
itself, and of two longest ones neither is longer. -/
theorem first_of_symbol (h : (c :: text, token) ∈ symbols) (hlongest : IsLongest (c :: text) rest) :
    first c (text ++ rest) = (token, text.length) := by
  obtain ⟨hseparator, hdigit, hword, hpoint, hsingle, hdouble⟩ := symbols_head _ h c rfl
  obtain ⟨more, behind, hsplit, hlength, hcovers⟩ := coversFront_first hseparator (text ++ rest)
  generalize first c (text ++ rest) = front at hlength hcovers ⊢
  obtain ⟨found, count⟩ := front
  cases hcovers with
  | symbol hmem hlong =>
    have hwhole : c :: more ++ behind = c :: text ++ rest := congrArg (c :: ·) hsplit
    have hle : (c :: more).length ≤ (c :: text).length := hlongest _ hmem ⟨behind, hwhole⟩
    have hge : (c :: text).length ≤ (c :: more).length := hlong _ h ⟨rest, hwhole.symm⟩
    obtain ⟨hsame, -⟩ := List.append_inj hwhole (Nat.le_antisymm hle hge)
    cases hsame
    cases symbols_unique _ hmem _ h rfl
    exact Prod.ext rfl hlength.symm
  | number hreads =>
    rcases hreads.starts with hnumber | ⟨hnumber, -⟩
    · rw [hdigit] at hnumber
      cases hnumber
    · exact absurd hnumber hpoint
  | word hstart =>
    rw [hword] at hstart
    cases hstart
  | access => exact absurd rfl hpoint
  | quoted hquoted =>
    cases hquoted with
    | closed hquote | unclosed hquote => exact absurd hquote (by simp [hsingle, hdouble])
  | unrecognized _ hstarts =>
    have hhead : startsWith c = true := by
      simp only [startsWith, Bool.or_eq_true, List.any_eq_true]
      exact .inr ⟨_, h, by simp⟩
    rw [hstarts] at hhead
    cases hhead

namespace Covers

/-- **What is spelled like a token is taken for it.** -/
theorem first_eq (h : token.Covers (c :: text) behind) :
    first c (text ++ behind) = (token, text.length) := by
  cases h with
  | number hreads hend => exact first_of_reads hreads hend
  | word hstart hmore hend => exact first_of_word hstart hmore hend
  | symbol hmem hlongest => exact first_of_symbol hmem hlongest
  | access hnext => exact first_of_access hnext
  | quoted hquoted => exact first_of_quoted hquoted
  | unrecognized _ hstarts hpoint => exact first_of_unrecognized hstarts hpoint

theorem exists_cons (h : token.Covers text behind) :
    ∃ c more, text = c :: more ∧ isSeparator c = false := by
  cases h with
  | number hreads =>
    obtain ⟨c, more, rfl⟩ := List.exists_cons_of_ne_nil hreads.ne_nil
    refine ⟨c, more, rfl, Bool.eq_false_iff.2 fun hseparator => ?_⟩
    rcases hreads.starts with hdigit | ⟨rfl, -⟩
    · rw [(isWordPart_of_isSeparator hseparator).2.2] at hdigit
      cases hdigit
    · cases hseparator
  | word hstart =>
    refine ⟨_, _, rfl, Bool.eq_false_iff.2 fun hseparator => ?_⟩
    rw [(isWordPart_of_isSeparator hseparator).2.1] at hstart
    cases hstart
  | symbol hmem =>
    cases text with
    | nil => rcases symbols_length _ hmem with hlength | hlength <;> cases hlength
    | cons c more => exact ⟨c, more, rfl, (symbols_head _ hmem c rfl).1⟩
  | access => exact ⟨_, _, rfl, rfl⟩
  | quoted hquoted =>
    cases hquoted with
    | closed hquote | unclosed hquote =>
      refine ⟨_, _, rfl, ?_⟩
      rcases hquote with rfl | rfl <;> rfl
  | unrecognized hseparator => exact ⟨_, _, rfl, hseparator⟩

/-- **The spelling leaves no choice**: one token covers the front of a text, and one front. -/
theorem unique {other : Token} {text' behind' : List Char} (h : token.Covers text behind)
    (hother : other.Covers text' behind') (hsame : text ++ behind = text' ++ behind') :
    token = other ∧ text = text' ∧ behind = behind' := by
  obtain ⟨c, more, rfl, -⟩ := h.exists_cons
  obtain ⟨c', more', rfl, -⟩ := hother.exists_cons
  obtain ⟨rfl, -⟩ := List.cons.inj hsame
  have hrest : more ++ behind = more' ++ behind' := (List.cons.inj hsame).2
  have hfirst := h.first_eq
  rw [hrest, hother.first_eq, Prod.mk.injEq] at hfirst
  obtain ⟨rfl, hlength⟩ := hfirst
  obtain ⟨rfl, rfl⟩ := List.append_inj hrest hlength.symm
  exact ⟨rfl, rfl, rfl⟩

theorem quoted_of (h : Covers (.foreign .stringLiteral) text behind) : Quoted text behind := by
  generalize htoken : Token.foreign .stringLiteral = token at h
  cases h with
  | quoted hquoted => exact hquoted
  | number =>
    rw [ofRun] at htoken
    split at htoken
    · cases htoken
    · split at htoken <;> cases htoken
  | @word c more =>
    rw [foreign.injEq, Construct.ofWord] at htoken
    split at htoken
    case h_9 => split at htoken <;> cases htoken
    all_goals cases htoken
  | symbol hmem =>
    have hnone : ∀ entry ∈ symbols, entry.2 ≠ .foreign .stringLiteral := by decide
    exact absurd htoken.symm (hnone _ hmem)
  | access => cases htoken
  | unrecognized => cases htoken

/-- **What is taken for a number is read as one.** -/
theorem ne_badNumber (h : token.Covers text behind) (run : List Char) :
    token ≠ .invalid (.badNumber run) := by
  cases h with
  | number hreads =>
    rw [ofRun, Binary64.ofNumeral?, Numeral.read?_eq_some_iff.2 hreads]
    split <;> simp
  | symbol hmem =>
    have hnone : ∀ entry ∈ symbols, entry.2 ≠ .invalid (.badNumber run) := by simp [symbols]
    exact hnone _ hmem
  | _ => simp

end Covers

end Token

end Calculator
