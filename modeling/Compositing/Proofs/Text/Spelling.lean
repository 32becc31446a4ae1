import Compositing.Lexicon

/-! # Spellings

    A keyword may be spelled with other letters where case does not count.  A
    literal that begins a spelled word, and a literal that clashes with it, are
    told apart by the word itself: what follows a spelled word cannot go on
    with it, so a longer literal is not matched by accident. -/

namespace Compositing

namespace Text

/-! ## Characters of words -/

/-- May `c` stand in a keyword? -/
def isWordChar (c : Char) : Bool := c.isAlphanum || c == '_'

/-- The letters by their code points. -/
theorem isAlpha_iff (c : Char) :
    c.isAlpha = true ↔ 65 ≤ c.toNat ∧ c.toNat ≤ 90 ∨ 97 ≤ c.toNat ∧ c.toNat ≤ 122 := by
  have halpha : c.isAlpha = (decide (65 ≤ c.val ∧ c.val ≤ 90) ||
      (decide (97 ≤ c.val) && decide (c.val ≤ 122))) := rfl
  rw [halpha]
  simp [UInt32.le_iff_toNat_le]

/-- The digits by their code points. -/
theorem isDigit_iff (c : Char) : c.isDigit = true ↔ 48 ≤ c.toNat ∧ c.toNat ≤ 57 :=
  Char.isDigit_iff_toNat

/-- The characters of keywords by their code points. -/
theorem isWordChar_iff (c : Char) :
    isWordChar c = true ↔
      65 ≤ c.toNat ∧ c.toNat ≤ 90 ∨ 97 ≤ c.toNat ∧ c.toNat ≤ 122 ∨
        48 ≤ c.toNat ∧ c.toNat ≤ 57 ∨ c.toNat = 95 := by
  have hline : c = '_' ↔ c.toNat = 95 := by
    rw [← Char.toNat_inj]
    rfl
  have hword : isWordChar c = (c.isAlpha || c.isDigit || c == '_') := rfl
  rw [hword, Bool.or_eq_true, Bool.or_eq_true, beq_iff_eq, isAlpha_iff, isDigit_iff, hline]
  omega

/-- The code point of a small letter. -/
theorem toNat_toLower (c : Char) :
    c.toLower.toNat = if 65 ≤ c.toNat ∧ c.toNat ≤ 90 then c.toNat + 32 else c.toNat := by
  unfold Char.toLower
  split
  · rename_i h
    have hrange : 65 ≤ c.toNat ∧ c.toNat ≤ 90 := by
      simpa [UInt32.le_iff_toNat_le] using h
    have hadd : (c.val + ('a'.val - 'A'.val)).toNat = (c.toNat + 32) % 2 ^ 32 := rfl
    rw [if_pos hrange]
    change (c.val + ('a'.val - 'A'.val)).toNat = c.toNat + 32
    rw [hadd]
    omega
  · rename_i h
    have hrange : ¬ (65 ≤ c.toNat ∧ c.toNat ≤ 90) := by
      simpa [UInt32.le_iff_toNat_le] using h
    rw [if_neg hrange]

/-- A letter of a word stays one as a small letter. -/
theorem isWordChar_toLower (c : Char) : isWordChar c.toLower = isWordChar c := by
  rw [Bool.eq_iff_iff, isWordChar_iff, isWordChar_iff, toNat_toLower]
  split
  · omega
  · rfl

theorem isBlank_of_isWordChar {c : Char} (h : isWordChar c = true) : isBlank c = false := by
  rw [isWordChar_iff] at h
  simp only [isBlank, blankRanges, List.any_cons, List.any_nil, Bool.or_false, Bool.or_eq_false_iff,
    Bool.and_eq_false_iff, decide_eq_false_iff_not]
  omega

/-! ## Spelling a word -/

theorem toLower_of_sameLetter {caseSensitive : Bool} {a b : Char}
    (h : sameLetter caseSensitive a b = true) : a.toLower = b.toLower := by
  unfold sameLetter at h
  split at h
  · rw [beq_iff_eq] at h
    rw [h]
  · exact beq_iff_eq.mp h

theorem isWordChar_of_sameLetter {caseSensitive : Bool} {a b : Char}
    (h : sameLetter caseSensitive a b = true) : isWordChar b = isWordChar a := by
  rw [← isWordChar_toLower b, ← toLower_of_sameLetter h, isWordChar_toLower]

theorem sameLetter_refl (caseSensitive : Bool) (c : Char) :
    sameLetter caseSensitive c c = true := by
  unfold sameLetter
  split
  · exact beq_self_eq_true _
  · exact beq_self_eq_true _

/-- The text spells the word, letter by letter. -/
inductive Spells (caseSensitive : Bool) : (word text : List Char) → Prop where
  | nil : Spells caseSensitive [] []
  | cons {w c word text} (hletter : sameLetter caseSensitive w c = true)
    (hrest : Spells caseSensitive word text) : Spells caseSensitive (w :: word) (c :: text)

namespace Spells
variable {caseSensitive : Bool} {word spelling : List Char}

/-- A word spells itself. -/
theorem refl (caseSensitive : Bool) (word : List Char) : Spells caseSensitive word word := by
  induction word with
  | nil => exact .nil
  | cons c word ih => exact .cons (sameLetter_refl caseSensitive c) ih

theorem length_eq (h : Spells caseSensitive word spelling) : spelling.length = word.length := by
  induction h with
  | nil => rfl
  | cons _ _ ih => rw [List.length_cons, List.length_cons, ih]

/-- The parts of a word are spelled by the parts of its spelling. -/
theorem of_append {first rest : List Char} (h : Spells caseSensitive (first ++ rest) spelling) :
    ∃ before after, spelling = before ++ after ∧ Spells caseSensitive first before ∧
      Spells caseSensitive rest after := by
  induction first generalizing spelling with
  | nil => exact ⟨[], spelling, rfl, .nil, h⟩
  | cons w first ih =>
    cases h with
    | cons hletter hrest =>
      obtain ⟨before, after, rfl, hfirst, hafter⟩ := ih hrest
      exact ⟨_ :: before, after, rfl, .cons hletter hfirst, hafter⟩

end Spells

/-! ## Words -/

/-- Is the text a word of keywords? -/
def isWord (text : List Char) : Bool := !text.isEmpty && text.all isWordChar

/-- The text cannot go on with a word. -/
def EndsWord (rest : List Char) : Prop := ∀ c ∈ rest.head?, isWordChar c = false

theorem words_go_of_not_blank {text : List Char} (h : ∀ c ∈ text, isBlank c = false)
    (word : List Char) :
    words.go word text = if (text.reverse ++ word).isEmpty then [] else [word.reverse ++ text] := by
  induction text generalizing word with
  | nil => simp [words.go]
  | cons c text ih =>
    rw [List.forall_mem_cons] at h
    simp [words.go, h.1, ih h.2]

/-- A text without white space is one word. -/
theorem words_of_not_blank {text : List Char} (hne : text ≠ [])
    (h : ∀ c ∈ text, isBlank c = false) : words text = [text] := by
  rw [words, words_go_of_not_blank h]
  simp [hne]

end Text

/-! ## Matching literals -/

namespace Lexeme
variable {caseSensitive : Bool} {literal word spelling text rest : List Char}

/-- A literal without white space is matched as one word. -/
theorem matchLiteral_eq (hne : literal ≠ []) (h : ∀ c ∈ literal, Text.isBlank c = false)
    (text : List Char) :
    matchLiteral caseSensitive literal text =
      (afterWord? caseSensitive literal text).map fun _ => literal.length := by
  unfold matchLiteral
  rw [Text.words_of_not_blank hne h]
  simp only
  cases afterWord? caseSensitive literal text with
  | none => rfl
  | some rest => rfl

/-- A spelled word is taken off. -/
theorem afterWord?_append (h : Text.Spells caseSensitive word spelling) (rest : List Char) :
    afterWord? caseSensitive word (spelling ++ rest) = some rest := by
  induction h with
  | nil => rfl
  | cons hletter _ ih =>
    rw [List.cons_append, afterWord?, if_pos hletter, ih]

/-- A word that is found is spelled there. -/
theorem spells_of_afterWord? (h : afterWord? caseSensitive word text = some rest) :
    ∃ spelling, text = spelling ++ rest ∧ Text.Spells caseSensitive word spelling := by
  induction word generalizing text with
  | nil =>
    cases h
    exact ⟨[], rfl, .nil⟩
  | cons w word ih =>
    cases text with
    | nil => cases h
    | cons c text =>
      rw [afterWord?] at h
      split at h
      · rename_i hletter
        obtain ⟨spelling, rfl, hspells⟩ := ih h
        exact ⟨c :: spelling, rfl, .cons hletter hspells⟩
      · cases h

/-- The literal differs from the word in a letter, or the word ends where it has one more. -/
def clashes : (literal word : List Char) → Bool
  | [], _ => false
  | l :: _, [] => Text.isWordChar l
  | l :: literal, w :: word => l.toLower != w.toLower || clashes literal word

/-- A literal that clashes with a spelled word is not found there. -/
theorem afterWord?_of_clashes (h : Text.Spells caseSensitive word spelling)
    (hrest : Text.EndsWord rest) (hclashes : clashes literal word = true) :
    afterWord? caseSensitive literal (spelling ++ rest) = none := by
  induction h generalizing literal with
  | nil =>
    cases literal with
    | nil => cases hclashes
    | cons l literal =>
      cases rest with
      | nil => rfl
      | cons c rest =>
        have hc : Text.isWordChar c = false := hrest c (by simp)
        have hl : Text.isWordChar l = true := hclashes
        rw [List.nil_append, afterWord?, if_neg]
        intro hletter
        rw [Text.isWordChar_of_sameLetter hletter, hl] at hc
        cases hc
  | cons hletter _ ih =>
    rename_i w c word text _
    cases literal with
    | nil => cases hclashes
    | cons l literal =>
      rw [clashes, Bool.or_eq_true, bne_iff_ne] at hclashes
      rw [List.cons_append, afterWord?]
      by_cases hl : Text.sameLetter caseSensitive l c = true
      · have hlower : l.toLower = w.toLower := by
          rw [Text.toLower_of_sameLetter hl, Text.toLower_of_sameLetter hletter]
        have hmore := hclashes.resolve_left fun hne => hne hlower
        rw [if_pos hl, ih hmore]
      · rw [if_neg hl]

end Lexeme
end Compositing
