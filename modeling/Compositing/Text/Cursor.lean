import Compositing.Text.Position

/-! # Cursors

    A cursor stands in a text: in front of what is left of the text behind a
    number of bytes.  It moves forward by characters, and to any byte offset. -/

namespace Compositing

/-- The position is in front of what is left of `text` behind its offset. -/
def Position.IsIn (text : List Char) (p : Position) : Prop :=
  ∃ passed, text = passed ++ p.rest ∧ p.offset = Text.byteLength passed

namespace Position.IsIn
variable {text : List Char} {p : Position}

theorem start (text : List Char) : (Position.start text).IsIn text := ⟨[], rfl, rfl⟩

theorem advance (h : p.IsIn text) (n : Nat) : (p.advance n).IsIn text := by
  induction n generalizing p with
  | zero => exact h
  | succ n ih =>
    obtain ⟨rest, offset, line⟩ := p
    cases rest with
    | nil => exact h
    | cons c rest =>
      obtain ⟨passed, htext, hoffset⟩ := h
      apply ih
      refine ⟨passed ++ [c], by simpa using htext, ?_⟩
      simp only at hoffset
      simp [hoffset]

/-- The line of a position does not matter. -/
theorem withLine (h : p.IsIn text) (line : Nat) : Position.IsIn text { p with line } := h

end Position.IsIn

/-- A position in a text. -/
structure Cursor (text : List Char) where
  position : Position
  isIn : position.IsIn text

namespace Cursor
variable {text : List Char}

/-- The cursor in front of the whole text. -/
def start (text : List Char) : Cursor text := ⟨.start text, .start text⟩

/-- The cursor at a byte offset, or at the end of the text, on the given line. -/
def seek (text : List Char) (offset line : Nat) : Cursor text :=
  ⟨Position.seek text offset line, ((Position.IsIn.start text).advance _).withLine line⟩

/-- The characters ahead. -/
def rest (c : Cursor text) : List Char := c.position.rest

/-- The byte offset reached. -/
def offset (c : Cursor text) : Nat := c.position.offset

/-- The line reached. -/
def line (c : Cursor text) : Nat := c.position.line

/-- The cursor `n` characters further on, or at the end of the text. -/
def advance (n : Nat) (c : Cursor text) : Cursor text := ⟨c.position.advance n, c.isIn.advance n⟩

/-- The cursor behind white space and comments. -/
def skipTrivia (c : Cursor text) : Cursor text := ⟨c.position.skipTrivia, c.isIn.advance _⟩

end Cursor
end Compositing
