import Calculator.Terminal.Glyph

/-!
# Characters of one column

Most characters take one column each and join no other character, those of ASCII among them, line
feeds apart.  In a text of such characters columns are characters: its width is its length
(`Text.width_of_single`).  A text in ASCII is drawn character by character
(`Terminal.width_of_mem_glyphs`).

The tables of the other characters begin behind ASCII, so that one look at the start of each range
tells that a character of ASCII is in none of them (`CodePointSet.has_eq_false`).
-/

namespace Calculator

namespace Text

variable {c : Char} {text : List Char}

/-! ## Characters of ASCII -/

/-- **A set that begins behind a character** does not have it. -/
theorem CodePointSet.has_eq_false {set : CodePointSet} {least : Nat}
    (hset : set.all (fun range => least ≤ range.1) = true) (hc : c.toNat < least) :
    set.has c = false := by
  rw [has, List.any_eq_false]
  rintro ⟨first, last⟩ hrange
  have hleast : least ≤ first := by simpa using List.all_eq_true.1 hset _ hrange
  simp
  omega

theorem beq_eq_false_of_toNat_lt (hc : c.toNat < 128) (d : Char) (hd : 128 ≤ d.toNat) :
    (c == d) = false := by
  rw [beq_eq_false_iff_ne]
  rintro rfl
  exact absurd hc (Nat.not_lt.2 hd)

theorem isRegional_eq_false (hc : c.toNat < 128) : isRegional c = false := by
  rw [isRegional, Bool.and_eq_false_iff]
  exact .inl (decide_eq_false (by omega))

theorem isSkinTone_eq_false (hc : c.toNat < 128) : isSkinTone c = false := by
  rw [isSkinTone, Bool.and_eq_false_iff]
  exact .inl (decide_eq_false (by omega))

theorem of_eq_plain (hc : c.toNat < 128) : Following.of c = .plain := by
  have hemoji : emojis.has c = false := CodePointSet.has_eq_false (by decide +kernel) hc
  have halef : isAlef c = false := CodePointSet.has_eq_false (by decide +kernel) hc
  have hkhmer : isKhmerLetter c = false := CodePointSet.has_eq_false (by decide +kernel) hc
  have htifinagh : isTifinagh c = false := CodePointSet.has_eq_false (by decide +kernel) hc
  have hnumber : ∀ n, 128 ≤ n → (c.toNat == n) = false := fun n hn =>
    beq_eq_false_iff_ne.2 (by omega)
  simp [Following.of, textSelector, emojiSelector, beq_eq_false_of_toNat_lt hc,
    isRegional_eq_false hc, isSkinTone_eq_false hc, hemoji, halef, hkhmer, htifinagh, hnumber]

theorem attachesLeft_eq_false (hc : c.toNat < 128) : attachesLeft c = false := by
  have hextending : extendingMarks.has c = false :=
    CodePointSet.has_eq_false (by decide +kernel) hc
  have hspacing : spacingMarks.has c = false := CodePointSet.has_eq_false (by decide +kernel) hc
  have hjoiner : (c == joiner) = false := beq_eq_false_of_toNat_lt hc joiner (by decide)
  simp [attachesLeft, hextending, hspacing, hjoiner, isSkinTone_eq_false hc]

theorem attachesRight_eq_false (hc : c.toNat < 128) : attachesRight c = false := by
  have henclosing : enclosingSigns.has c = false :=
    CodePointSet.has_eq_false (by decide +kernel) hc
  have hprefixed : prefixedLetters.has c = false :=
    CodePointSet.has_eq_false (by decide +kernel) hc
  simp [attachesRight, henclosing, hprefixed]

/-! ## Texts of such characters -/

/-- **A character of one column** that takes part in no sequence. -/
def IsSingle (c : Char) : Prop := isSolitary c = true ∧ charWidth c = 1

/-- The characters of ASCII take one column each, line feeds apart. -/
theorem isSingle_of_toNat_lt (hc : c.toNat < 128) (hline : c ≠ '\n') : IsSingle c := by
  have hsmall : c ≤ '\u00a0' := by
    rw [Char.le_def, UInt32.le_iff_toNat_le]
    exact Nat.le_of_lt (Nat.lt_trans hc (by decide))
  constructor
  · simp [isSolitary, hline, of_eq_plain hc]
  · rw [charWidth, if_pos hsmall]

theorem columns_of_single (h : ∀ c ∈ text, charWidth c = 1) : columns text = text.length := by
  induction text with
  | nil => rfl
  | cons c rest ih =>
    obtain ⟨hc, hrest⟩ := List.forall_mem_cons.1 h
    rw [columns_cons, hc, ih hrest, List.length_cons, Nat.add_comm]

/-- **A text of such characters is as wide as it is long.** -/
theorem width_of_single (h : ∀ c ∈ text, IsSingle c) : width text = text.length := by
  rw [width_eq_columns fun c hc => (h c hc).1, columns_of_single fun c hc => (h c hc).2]

end Text

namespace Terminal

open Text

theorem symbolsOf_eq_map {text : List Char}
    (h : ∀ c ∈ text, attachesLeft c = false ∧ attachesRight c = false) :
    symbolsOf text = text.map fun c => [c] := by
  induction text with
  | nil => rfl
  | cons c rest ih =>
    obtain ⟨hc, hrest⟩ := List.forall_mem_cons.1 h
    rw [symbolsOf, ih hrest]
    cases rest with
    | nil => rfl
    | cons mark marks =>
      have hmark := (hrest mark List.mem_cons_self).1
      simp [hc.2, hmark]

/-- **Each character of ASCII is a glyph of one column.** -/
theorem width_of_mem_glyphs {span : Span} {g : Glyph} (h : ∀ c ∈ span.text, c.toNat < 128)
    (hg : g ∈ span.glyphs) : g.width = 1 := by
  have hsymbols : symbolsOf span.text = span.text.map fun c => [c] :=
    symbolsOf_eq_map fun c hc => ⟨attachesLeft_eq_false (h c hc), attachesRight_eq_false (h c hc)⟩
  rw [Span.glyphs, hsymbols, List.mem_map] at hg
  obtain ⟨symbol, hsymbol, rfl⟩ := hg
  obtain ⟨hmem, hline⟩ := List.mem_filter.1 hsymbol
  obtain ⟨c, hc, rfl⟩ := List.mem_map.1 hmem
  have hsingle : IsSingle c := isSingle_of_toNat_lt (h c hc) (by simpa using hline)
  rw [Glyph.width, width_of_single (List.forall_mem_singleton.2 hsingle)]
  rfl

end Terminal

end Calculator
