import Compositing.Proofs.Recognition.Leaves
import Compositing.Proofs.Text.Spelling

/-! # Written pieces

    A text is written of pieces: keywords, braces and quotes, numerals, labels
    and names, with gaps between them.  `Writes` relates the pieces to every
    text that spells them; what follows a piece must not go on with it. -/

namespace Compositing

/-- What a text is written of. -/
inductive Piece where
  /-- A keyword, or what is left of one. -/
  | word (text : List Char)
  /-- A brace or a quote. -/
  | mark (c : Char)
  | number (n : Numeral)
  /-- A label, bare or quoted. -/
  | label (s : String)
  /-- The name of a compositor. -/
  | name (s : String)

/-- Does `c` stand for itself, whatever is around it? -/
def Text.isMark (c : Char) : Bool := c == '{' || c == '}' || c == '"'

theorem Text.eq_or_of_isMark {c : Char} (h : isMark c = true) : c = '{' ∨ c = '}' ∨ c = '"' := by
  simpa [isMark, or_assoc] using h

/-- The spellings of a piece in front of a text. -/
inductive Piece.Spelled (caseSensitive : Bool) : Piece → (spelling after : List Char) → Prop where
  | word {word spelling after} (hword : Text.isWord word = true)
    (hspells : Text.Spells caseSensitive word spelling) (hafter : Text.EndsWord after) :
    Spelled caseSensitive (.word word) spelling after
  | mark {c after} (hmark : Text.isMark c = true) : Spelled caseSensitive (.mark c) [c] after
  | number {n after} (hafter : Number.EndsNumeral after) :
    Spelled caseSensitive (.number n) n.text after
  | bareLabel {s after} (hlabel : Scan.IsBareLabel s) (hafter : Scan.EndsLabel after) :
    Spelled caseSensitive (.label s) s.toList after
  | quotedLabel {s after} (hlabel : Scan.IsQuotedLabel s) :
    Spelled caseSensitive (.label s) ('"' :: (s.toList ++ ['"'])) after
  | name {s after} (hname : Scan.IsName s) (hafter : Scan.KeepsSlash s.toList after) :
    Spelled caseSensitive (.name s) s.toList after

/-- The texts that are written of some pieces, with gaps before and between them and an ending
    after them. -/
inductive Writes (caseSensitive : Bool) : List Piece → (text : List Char) → Prop where
  | done {text} (hending : Text.IsEnding text) : Writes caseSensitive [] text
  | piece {piece : Piece} {pieces gap spelling text} (hgap : Text.IsGap gap)
    (hspelled : piece.Spelled caseSensitive spelling text)
    (hrest : Writes caseSensitive pieces text) :
    Writes caseSensitive (piece :: pieces) (gap ++ (spelling ++ text))

/-! ## Where a piece begins -/

namespace Piece.Spelled
variable {caseSensitive : Bool} {piece : Piece} {spelling after : List Char}

/-- A spelled word is not empty. -/
theorem exists_letter {word : List Char} (hword : Text.isWord word = true)
    (hspells : Text.Spells caseSensitive word spelling) :
    ∃ c rest, spelling = c :: rest ∧ Text.isWordChar c = true := by
  cases hspells with
  | nil => cases hword
  | cons hletter _ =>
    rename_i w c _ _ _
    simp only [Text.isWord, List.all_cons, Bool.and_eq_true] at hword
    exact ⟨c, _, rfl, by rw [Text.isWordChar_of_sameLetter hletter, hword.2.1]⟩

theorem ne_nil (h : piece.Spelled caseSensitive spelling after) : spelling ≠ [] := by
  cases h with
  | word hword hspells _ =>
    obtain ⟨c, rest, rfl, _⟩ := exists_letter hword hspells
    simp
  | mark _ => simp
  | number _ => exact Numeral.text_ne_nil _
  | bareLabel hlabel _ => exact hlabel.nonempty
  | quotedLabel _ => simp
  | name hname _ => exact hname.nonempty

theorem mem_head?_of_append {text rest : List Char} (hne : text ≠ []) {c : Char}
    (h : c ∈ (text ++ rest).head?) : c ∈ text.head? := by
  cases text with
  | nil => exact absurd rfl hne
  | cons d text => exact h

/-- A text that begins with no comment goes on without one, unless its only slash is followed by
    another. -/
theorem no_comment {text rest : List Char} (hne : text ≠ []) (htext : ¬ ['/', '/'] <+: text)
    (hslash : text = ['/'] → rest.head? ≠ some '/') : ¬ ['/', '/'] <+: text ++ rest := by
  intro hcomment
  cases text with
  | nil => exact hne rfl
  | cons c text =>
    rw [List.cons_append, List.cons_prefix_cons] at hcomment
    obtain ⟨rfl, hcomment⟩ := hcomment
    cases text with
    | nil =>
      apply hslash rfl
      obtain ⟨tail, rfl⟩ := hcomment
      rfl
    | cons d text =>
      apply htext
      rw [List.cons_append, List.cons_prefix_cons] at hcomment
      rw [← hcomment.1]
      exact ⟨text, rfl⟩

theorem not_blank_of_numeral {c : Char}
    (h : (Number.isSign c || c.isDigit || c == '.') = true) : Text.isBlank c = false := by
  rcases Numeral.eq_or_of_head h with rfl | rfl | hdigit | rfl
  · rfl
  · rfl
  · apply Text.isBlank_of_isWordChar
    simp [Text.isWordChar, Char.isAlphanum, hdigit]
  · rfl

/-- A piece begins with neither white space nor a comment. -/
theorem isPlain (h : piece.Spelled caseSensitive spelling after) :
    Text.IsPlain (spelling ++ after) := by
  cases h with
  | word hword hspells _ =>
    obtain ⟨c, rest, rfl, hc⟩ := exists_letter hword hspells
    refine Text.isPlain_cons _ (Text.isBlank_of_isWordChar hc) ?_
    rintro rfl
    exact absurd hc (by decide)
  | mark hmark =>
    rcases Text.eq_or_of_isMark hmark with rfl | rfl | rfl
    · exact Text.isPlain_cons _ (by decide) (by decide)
    · exact Text.isPlain_cons _ (by decide) (by decide)
    · exact Text.isPlain_cons _ (by decide) (by decide)
  | number _ =>
    rename_i n _
    obtain ⟨c, rest, htext, hc⟩ := n.head_text
    rw [htext]
    refine Text.isPlain_cons _ (not_blank_of_numeral hc) ?_
    rintro rfl
    exact absurd hc (by decide)
  | bareLabel hlabel hafter =>
    constructor
    · intro c hc
      have hfirst := mem_head?_of_append hlabel.nonempty hc
      have hinside := hlabel.inside c (List.mem_of_mem_head? hfirst)
      simp only [Scan.endsLabel, Bool.or_eq_false_iff] at hinside
      exact hinside.1.1.1
    · refine no_comment hlabel.nonempty hlabel.comment fun _ hhead => ?_
      have hends := hafter '/' hhead
      exact absurd hends (by decide)
  | quotedLabel _ => exact Text.isPlain_cons _ (by decide) (by decide)
  | name hname hafter =>
    constructor
    · intro c hc
      exact hname.first c (mem_head?_of_append hname.nonempty hc)
    · refine no_comment hname.nonempty (fun h => hname.comment h.isInfix) fun hslash => ?_
      apply hafter
      rw [hslash]
      rfl

end Piece.Spelled

/-! ## Printing -/

namespace Piece

/-- The piece has a spelling. -/
def IsWritable : Piece → Prop
  | word text => Text.isWord text = true
  | mark c => Text.isMark c = true
  | number _ => True
  | label s => Scan.IsQuotedLabel s
  | name s => Scan.IsName s

instance : DecidablePred IsWritable
  | word text => inferInstanceAs (Decidable (Text.isWord text = true))
  | mark c => inferInstanceAs (Decidable (Text.isMark c = true))
  | number _ => inferInstanceAs (Decidable True)
  | label s => inferInstanceAs (Decidable (Scan.IsQuotedLabel s))
  | name s => inferInstanceAs (Decidable (Scan.IsName s))

/-- A spelling of a piece; labels are put between quotes. -/
def spelling : Piece → List Char
  | word text => text
  | mark c => [c]
  | number n => n.text
  | label s => '"' :: (s.toList ++ ['"'])
  | name s => s.toList

/-- The pieces with a blank in front of each. -/
def print (pieces : List Piece) : List Char := pieces.flatMap fun piece => ' ' :: piece.spelling

variable {caseSensitive : Bool}

/-- A blank ends every piece. -/
theorem spelled_spelling {piece : Piece} (h : piece.IsWritable) {after : List Char}
    (hafter : ∀ c ∈ after.head?, c = ' ') : piece.Spelled caseSensitive piece.spelling after := by
  cases piece with
  | word text =>
    refine .word h (Text.Spells.refl caseSensitive text) fun c hc => ?_
    rw [hafter c hc]
    rfl
  | mark c => exact .mark h
  | number n =>
    refine .number fun c hc => ?_
    rw [hafter c hc]
    rfl
  | label s => exact .quotedLabel h
  | name s =>
    refine .name h fun _ hhead => ?_
    exact absurd (hafter '/' hhead) (by decide)

/-- Pieces that can be written have a text. -/
theorem writes_print {pieces : List Piece} (h : ∀ piece ∈ pieces, piece.IsWritable) :
    Writes caseSensitive pieces (print pieces) := by
  induction pieces with
  | nil => exact .done ⟨[], .nil, .inl rfl⟩
  | cons piece pieces ih =>
    rw [List.forall_mem_cons] at h
    have hafter : ∀ c ∈ (print pieces).head?, c = ' ' := by
      cases pieces with
      | nil => simp [print]
      | cons next pieces => simp [print]
    have hwrites : Writes caseSensitive (piece :: pieces)
        ([' '] ++ (piece.spelling ++ print pieces)) :=
      .piece (.blank rfl .nil) (spelled_spelling h.1 hafter) (ih h.2)
    exact hwrites

theorem isWritable_of_spelled {piece : Piece} {spelling after : List Char}
    (h : piece.Spelled caseSensitive spelling after) : piece.IsWritable := by
  cases h with
  | word hword _ _ => exact hword
  | mark hmark => exact hmark
  | number _ => trivial
  | bareLabel hlabel _ => exact Scan.isQuotedLabel_of_isBareLabel hlabel
  | quotedLabel hlabel => exact hlabel
  | name hname _ => exact hname

/-- Pieces have a text exactly if each of them can be written. -/
theorem exists_writes_iff {pieces : List Piece} :
    (∃ text, Writes caseSensitive pieces text) ↔ ∀ piece ∈ pieces, piece.IsWritable := by
  constructor
  · rintro ⟨text, h⟩
    induction h with
    | done _ => simp
    | piece _ hspelled _ ih =>
      rw [List.forall_mem_cons]
      exact ⟨isWritable_of_spelled hspelled, ih⟩
  · intro h
    exact ⟨print pieces, writes_print h⟩

end Piece
end Compositing
