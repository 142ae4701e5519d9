import Calculator.Proofs.Spelling

/-!
# The tokens of a text partition it

A scan places every token and says nothing about where it ends.  A `Block` is a token with the
characters it covers, and `Cut` cuts a text into blocks and separators by the spelling of tokens
alone, without the scan.  There is exactly one cut of every text, and its blocks are the tokens of
the scan, each at its place.

What a cut says step by step, `Partition` says about places in the whole text: the blocks stand
where they say, none of them is empty, each ends before the next one starts, and what is left over
are separators.  So nothing of a text is skipped but separators, and nothing is read twice.

A blank inside of a quoted text is part of a block.  Separators are left out only between tokens.
-/

namespace Calculator

/-! ## Blocks -/

/-- **A token with the characters it covers.** -/
structure Block where
  token : Token
  position : Nat
  text : List Char

namespace Block

/-- The token of a block, at its place. -/
def lexeme (block : Block) : Lexeme := ⟨block.token, block.position⟩

/-- The place behind a block. -/
def stop (block : Block) : Nat := block.position + block.text.length

/-- Whether the character at a place belongs to a block. -/
def Holds (block : Block) (place : Nat) : Prop := block.position ≤ place ∧ place < block.stop

end Block

/-- **A cut of a text** whose first character stands at a position. -/
inductive Cut : Nat → List Block → List Char → Prop where
  | nil {position : Nat} : Cut position [] []
  | separator {position : Nat} {c : Char} {blocks : List Block} {rest : List Char} :
    c ∈ [' ', '\t', '\n', '\r'] → Cut (position + 1) blocks rest →
    Cut position blocks (c :: rest)
  | block {position : Nat} {token : Token} {text behind : List Char} {blocks : List Block} :
    token.Covers text behind → Cut (position + text.length) blocks behind →
    Cut position (⟨token, position, text⟩ :: blocks) (text ++ behind)

variable {position : Nat} {blocks other : List Block} {text : List Char}

/-! ## The cut of a text -/

theorem exists_cut (position : Nat) (text : List Char) : ∃ blocks, Cut position blocks text := by
  induction position, text using Lexeme.scan_induction with
  | nil position => exact ⟨[], .nil⟩
  | separator position c rest hseparator ih =>
    obtain ⟨blocks, hcut⟩ := ih
    exact ⟨blocks, .separator (isSeparator_iff.1 hseparator) hcut⟩
  | token position c rest hseparator ih =>
    obtain ⟨more, behind, rfl, hlength, hcovers⟩ := Token.coversFront_first hseparator rest
    rw [← hlength, List.drop_left, Nat.add_assoc, Nat.add_comm 1] at ih
    obtain ⟨blocks, hcut⟩ := ih
    exact ⟨_, .block hcovers hcut⟩

namespace Cut

/-- **The scan finds the blocks of a cut.** -/
theorem scanFrom_eq (h : Cut position blocks text) :
    Lexeme.scanFrom position 0 text = blocks.map Block.lexeme := by
  induction h with
  | nil => simp
  | separator hseparator _ ih =>
    rw [Lexeme.scanFrom_separator (isSeparator_iff.2 hseparator), ih]
  | @block position token text behind blocks hcovers _ ih =>
    obtain ⟨c, more, rfl, hseparator⟩ := hcovers.exists_cons
    rw [List.length_cons, Nat.add_comm more.length, ← Nat.add_assoc] at ih
    rw [List.cons_append, Lexeme.scanFrom_token hseparator, hcovers.first_eq, List.drop_left, ih]
    rfl

theorem eq_nil (h : Cut position blocks []) : blocks = [] := by
  generalize hwhole : ([] : List Char) = whole at h
  cases h with
  | nil => rfl
  | separator => cases hwhole
  | block hcovers =>
    obtain ⟨c, more, rfl, -⟩ := hcovers.exists_cons
    cases hwhole

theorem of_separator {c : Char} {rest : List Char} (h : Cut position blocks (c :: rest))
    (hseparator : isSeparator c = true) : Cut (position + 1) blocks rest := by
  generalize hwhole : c :: rest = whole at h
  cases h with
  | nil => cases hwhole
  | separator _ hrest =>
    cases hwhole
    exact hrest
  | block hcovers =>
    obtain ⟨d, more, rfl, hd⟩ := hcovers.exists_cons
    obtain ⟨rfl, -⟩ := List.cons.inj hwhole
    rw [hseparator] at hd
    cases hd

/-- What is spelled like a token is cut off as the block of this token. -/
theorem of_covers {token : Token} {behind : List Char} (h : Cut position blocks (text ++ behind))
    (hcovers : token.Covers text behind) :
    ∃ more, blocks = ⟨token, position, text⟩ :: more ∧
      Cut (position + text.length) more behind := by
  generalize hwhole : text ++ behind = whole at h
  obtain ⟨c, rest, rfl, hc⟩ := hcovers.exists_cons
  cases h with
  | nil => cases hwhole
  | separator hseparator =>
    obtain ⟨rfl, -⟩ := List.cons.inj hwhole
    rw [isSeparator_iff.2 hseparator] at hc
    cases hc
  | block hcovers' hrest =>
    obtain ⟨rfl, rfl, rfl⟩ := hcovers.unique hcovers' hwhole
    exact ⟨_, rfl, hrest⟩

/-- **There is only one cut.** -/
theorem unique (h : Cut position blocks text) (hother : Cut position other text) :
    blocks = other := by
  induction h generalizing other with
  | nil => exact hother.eq_nil.symm
  | separator hseparator _ ih =>
    exact ih (hother.of_separator (isSeparator_iff.2 hseparator))
  | block hcovers _ ih =>
    obtain ⟨more, rfl, hrest⟩ := hother.of_covers hcovers
    rw [ih hrest]

end Cut

/-! ## Places in the whole text -/

/-- **A partition of a text** into blocks and separators. -/
structure Partition (text : List Char) (blocks : List Block) : Prop where
  /-- A block is the piece of the text between the places where it starts and ends. -/
  stands : ∀ block ∈ blocks, text.drop block.position = block.text ++ text.drop block.stop
  nonempty : ∀ block ∈ blocks, block.text ≠ []
  /-- Every block ends where the next one starts, or before. -/
  ordered : blocks.Pairwise fun block next => block.stop ≤ next.position
  separated : ∀ place c, text[place]? = some c → (∀ block ∈ blocks, ¬ block.Holds place) →
    c ∈ [' ', '\t', '\n', '\r']

namespace Cut

section Whole

variable {whole : List Char}

theorem drop_succ {c : Char} {rest : List Char} (h : whole.drop position = c :: rest) :
    whole.drop (position + 1) = rest := by
  rw [← List.tail_drop, h, List.tail_cons]

theorem drop_length {behind : List Char} (h : whole.drop position = text ++ behind) :
    whole.drop (position + text.length) = behind := by
  rw [← List.drop_drop, h, List.drop_left]

/-- The blocks of a cut stand behind the place where the cut starts. -/
theorem position_le (h : Cut position blocks text) :
    ∀ block ∈ blocks, position ≤ block.position := by
  induction h with
  | nil => simp
  | separator _ _ ih => exact fun block hblock => Nat.le_of_succ_le (ih block hblock)
  | block _ _ ih =>
    refine List.forall_mem_cons.2 ⟨Nat.le_refl _, fun block hblock => ?_⟩
    exact Nat.le_trans (Nat.le_add_right _ _) (ih block hblock)

/-- **Every block covers the text where it stands.** -/
theorem covers (h : Cut position blocks text) (hwhole : whole.drop position = text) :
    ∀ block ∈ blocks, block.token.Covers block.text (whole.drop block.stop) ∧
      whole.drop block.position = block.text ++ whole.drop block.stop := by
  induction h with
  | nil => simp
  | separator _ _ ih => exact ih (drop_succ hwhole)
  | block hcovers _ ih =>
    have hbehind := drop_length hwhole
    refine List.forall_mem_cons.2 ⟨?_, ih hbehind⟩
    rw [Block.stop, hbehind]
    exact ⟨hcovers, hwhole⟩

theorem ordered (h : Cut position blocks text) :
    blocks.Pairwise fun block next => block.stop ≤ next.position := by
  induction h with
  | nil => exact .nil
  | separator _ _ ih => exact ih
  | block _ hrest ih => exact .cons hrest.position_le ih

/-- **What no block holds is a separator.** -/
theorem separated (h : Cut position blocks text) (hwhole : whole.drop position = text) {place : Nat}
    {c : Char} (hplace : position ≤ place) (hc : whole[place]? = some c)
    (hfree : ∀ block ∈ blocks, ¬ block.Holds place) : isSeparator c = true := by
  induction h with
  | nil =>
    have hlength := List.drop_eq_nil_iff.1 hwhole
    rw [List.getElem?_eq_none (Nat.le_trans hlength hplace)] at hc
    cases hc
  | @separator position d blocks rest hseparator _ ih =>
    rcases Nat.eq_or_lt_of_le hplace with rfl | hlater
    · rw [← Nat.add_zero position, ← List.getElem?_drop, hwhole] at hc
      cases hc
      exact isSeparator_iff.2 hseparator
    · exact ih (drop_succ hwhole) hlater hfree
  | block _ _ ih =>
    obtain ⟨hfirst, hrest⟩ := List.forall_mem_cons.1 hfree
    exact ih (drop_length hwhole) (Nat.le_of_not_lt fun hlt => hfirst ⟨hplace, hlt⟩) hrest

end Whole

/-- **A cut is a partition.** -/
theorem partition (h : Cut 0 blocks text) : Partition text blocks where
  stands := fun block hblock => (h.covers rfl block hblock).2
  nonempty := fun block hblock => by
    obtain ⟨c, more, htext, -⟩ := (h.covers rfl block hblock).1.exists_cons
    simp [htext]
  ordered := h.ordered
  separated := fun place _ hc hfree =>
    isSeparator_iff.1 (h.separated rfl (Nat.zero_le place) hc hfree)

end Cut

namespace Partition

theorem position_lt (h : Partition text blocks) :
    ∀ block ∈ blocks, block.position < text.length := by
  intro block hblock
  refine Nat.lt_of_not_le fun hle => h.nonempty block hblock ?_
  have hstands := h.stands block hblock
  rw [List.drop_eq_nil_of_le hle] at hstands
  exact (List.append_eq_nil_iff.1 hstands.symm).1

theorem increasing (h : Partition text blocks) :
    blocks.Pairwise fun block next => block.position < next.position := by
  refine h.ordered.imp_of_mem fun {block next} hblock _ hle => ?_
  have hpos := List.length_pos_iff.2 (h.nonempty block hblock)
  rw [Block.stop] at hle
  omega

end Partition

/-- **The tokens of a text partition it.**  There is exactly one way to cut a text into tokens as
they are spelled and separators, and the scan finds the blocks of this cut: at increasing places
inside of the text, none of them empty, each ending before the next one starts, and with separators
only outside of them.  A quoted text covers everything up to its closing quote or to the end of the
text.  What is taken for a number is always read as one. -/
theorem scan_partitions (text : List Char) :
    ∃ blocks : List Block,
      (∀ other, Cut 0 other text ↔ other = blocks) ∧
      Lexeme.scan text = blocks.map Block.lexeme ∧
      Partition text blocks ∧
      (∀ lexeme ∈ Lexeme.scan text, lexeme.position < text.length) ∧
      (Lexeme.scan text).Pairwise (fun lexeme next => lexeme.position < next.position) ∧
      (∀ block ∈ blocks, block.token.Covers block.text (text.drop block.stop)) ∧
      (∀ block ∈ blocks, block.token = .foreign .stringLiteral →
        Quoted block.text (text.drop block.stop)) ∧
      (∀ lexeme ∈ Lexeme.scan text, ∀ run, lexeme.token ≠ .invalid (.badNumber run)) ∧
      ∀ c rest, c.isDigit = true ∨ c = '.' ∧ rest.head?.any Char.isDigit = true →
        ∃ value, Binary64.ofNumeral? (numeralRun (c :: rest)) = some value := by
  obtain ⟨blocks, hcut⟩ := exists_cut 0 text
  have hscan : Lexeme.scan text = blocks.map Block.lexeme := hcut.scanFrom_eq
  have hpartition := hcut.partition
  have hcovers : ∀ block ∈ blocks, block.token.Covers block.text (text.drop block.stop) :=
    fun block hblock => (hcut.covers rfl block hblock).1
  refine ⟨blocks, fun other => ⟨fun hother => hother.unique hcut, fun heq => heq ▸ hcut⟩, hscan,
    hpartition, ?_, ?_, hcovers, ?_, ?_, ?_⟩
  · rw [hscan, List.forall_mem_map]
    exact hpartition.position_lt
  · rw [hscan, List.pairwise_map]
    exact hpartition.increasing
  · intro block hblock htoken
    have hquoted := hcovers block hblock
    rw [htoken] at hquoted
    exact hquoted.quoted_of
  · rw [hscan, List.forall_mem_map]
    exact fun block hblock => (hcovers block hblock).ne_badNumber
  · intro c rest hstarts
    obtain ⟨q, -, hreads, -⟩ := Token.exists_reads_numeralRun hstarts
    exact ⟨_, by rw [Binary64.ofNumeral?, Numeral.read?_eq_some_iff.2 hreads, Option.map_some]⟩

end Calculator
