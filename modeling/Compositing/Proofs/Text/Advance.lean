import Compositing.Text.Position

/-! # Moving through a text

    A move passes a number of characters.  What is left shrinks by them, the
    offset grows by their bytes and the line by their line ends.  A character
    has at least one byte, so a move that keeps the offset goes nowhere. -/

namespace Compositing

/-! ## Line ends -/

namespace Text

@[simp] theorem newlines_nil : newlines [] = 0 := rfl

@[simp] theorem newlines_append (a b : List Char) :
    newlines (a ++ b) = newlines a + newlines b := by
  simp [newlines]

end Text

namespace Position

/-! ## Advancing -/

@[simp] theorem advance_zero (p : Position) : p.advance 0 = p := by
  cases p
  rfl

/-- What a move does to a position. -/
theorem advance_eq (n : Nat) (p : Position) :
    p.advance n =
      ⟨p.rest.drop n, p.offset + Text.byteLength (p.rest.take n),
        p.line + Text.newlines (p.rest.take n)⟩ := by
  induction n generalizing p with
  | zero => simp
  | succ n ih =>
    obtain ⟨rest, offset, line⟩ := p
    cases rest with
    | nil => simp [advance]
    | cons c rest =>
      simp only [advance, ih, List.drop_succ_cons, List.take_succ_cons, Text.byteLength_cons,
        Text.newlines, List.count_cons]
      by_cases h : c = '\n'
      · simp [h]
        omega
      · simp [h]
        omega

@[simp] theorem advance_rest (n : Nat) (p : Position) : (p.advance n).rest = p.rest.drop n := by
  rw [advance_eq]

theorem advance_offset (n : Nat) (p : Position) :
    (p.advance n).offset = p.offset + Text.byteLength (p.rest.take n) := by
  rw [advance_eq]

theorem advance_line (n : Nat) (p : Position) :
    (p.advance n).line = p.line + Text.newlines (p.rest.take n) := by
  rw [advance_eq]

/-- Two moves make one. -/
theorem advance_add (m n : Nat) (p : Position) : p.advance (m + n) = (p.advance m).advance n := by
  simp only [advance_eq, List.drop_drop, List.take_add, Text.byteLength_append,
    Text.newlines_append]
  simp [Nat.add_assoc]

/-- A move ends at the end of the text. -/
theorem advance_length_take (n : Nat) (p : Position) :
    p.advance (p.rest.take n).length = p.advance n := by
  rcases Nat.le_total n p.rest.length with h | h
  · rw [List.length_take, Nat.min_eq_left h]
  · rw [List.length_take, Nat.min_eq_right h]
    simp [advance_eq, List.take_of_length_le h, List.drop_eq_nil_of_le h]

/-- A move that keeps the offset goes nowhere. -/
theorem advance_eq_self_of_offset {n : Nat} {p : Position}
    (h : (p.advance n).offset = p.offset) : p.advance n = p := by
  rw [advance_offset] at h
  have htake : p.rest.take n = [] := Text.byteLength_eq_zero_iff.mp (by omega)
  have hdrop : p.rest.drop n = p.rest := by
    have := List.take_append_drop n p.rest
    rw [htake] at this
    simpa using this
  rw [advance_eq, htake, hdrop]
  rfl

/-! ## Offsets -/

/-- As many characters as are needed for some bytes fit in them. -/
theorem charactersWithin_append (before after : List Char) :
    charactersWithin (Text.byteLength before) (before ++ after) = before.length := by
  have hgo : ∀ taken, charactersWithin.go (Text.byteLength before) taken (before ++ after) =
      taken + before.length := by
    induction before with
    | nil =>
      intro taken
      cases after with
      | nil => rfl
      | cons c rest =>
        have := c.utf8Size_pos
        simp [charactersWithin.go]
        omega
    | cons c before ih =>
      intro taken
      simp only [List.cons_append, charactersWithin.go, Text.byteLength_cons]
      rw [if_pos (by omega), show c.utf8Size + Text.byteLength before - c.utf8Size =
        Text.byteLength before from by omega, ih]
      simp only [List.length_cons]
      omega
  rw [charactersWithin, hgo, Nat.zero_add]

/-- What is in front of a place is known by the offset of the place. -/
theorem append_inj_of_byteLength {before after before' after' : List Char}
    (h : before ++ after = before' ++ after')
    (hbytes : Text.byteLength before = Text.byteLength before') :
    before = before' ∧ after = after' := by
  have hlength : before.length = before'.length := by
    rw [← charactersWithin_append before after, h, hbytes, charactersWithin_append]
  exact List.append_inj h hlength

/-- The byte offset of a character boundary leads to it from the start. -/
theorem start_advanceBytes (before after : List Char) :
    (start (before ++ after)).advanceBytes (Text.byteLength before) =
      ⟨after, Text.byteLength before, 1 + Text.newlines before⟩ := by
  simp [advanceBytes, start, charactersWithin_append, advance_eq]

theorem seek_append (before after : List Char) (line : Nat) :
    seek (before ++ after) (Text.byteLength before) line =
      ⟨after, Text.byteLength before, line⟩ := by
  simp [seek, start_advanceBytes]

/-- The offset of a place ahead leads to it. -/
theorem forwardTo_advance (n : Nat) (p : Position) :
    p.forwardTo (p.advance n).offset = p.advance n := by
  have hbytes : (p.advance n).offset - p.offset = Text.byteLength (p.rest.take n) := by
    rw [advance_offset]
    omega
  have hcount : charactersWithin (Text.byteLength (p.rest.take n)) p.rest =
      (p.rest.take n).length := by
    have h := charactersWithin_append (p.rest.take n) (p.rest.drop n)
    rwa [List.take_append_drop] at h
  rw [forwardTo, advanceBytes, hbytes, hcount, advance_length_take]

/-! ## Between two parts of a text -/

/-- The position between two parts of a text. -/
def between (before after : List Char) : Position :=
  ⟨after, Text.byteLength before, 1 + Text.newlines before⟩

theorem between_advance (n : Nat) (before after : List Char) :
    (between before after).advance n = between (before ++ after.take n) (after.drop n) := by
  simp [between, advance_eq, Nat.add_assoc]

theorem between_advance_length (before content after : List Char) :
    (between before (content ++ after)).advance content.length =
      between (before ++ content) after := by
  simp [between_advance]

/-! ## Reaching -/

/-- A position that a move from `p` leads to. -/
def Reaches (p q : Position) : Prop := ∃ n, q = p.advance n

theorem Reaches.refl (p : Position) : Reaches p p := ⟨0, by simp⟩

theorem Reaches.trans {p q r : Position} (h : Reaches p q) (h' : Reaches q r) :
    Reaches p r := by
  obtain ⟨m, rfl⟩ := h
  obtain ⟨n, rfl⟩ := h'
  exact ⟨m + n, (advance_add m n p).symm⟩

theorem reaches_skipTrivia (p : Position) : Reaches p p.skipTrivia := ⟨_, rfl⟩

/-- A move that changes the offset leaves less text. -/
theorem Reaches.length_lt {p q : Position} (h : Reaches p q) (hne : q.offset ≠ p.offset) :
    q.rest.length < p.rest.length := by
  obtain ⟨n, rfl⟩ := h
  have hn : n ≠ 0 := by
    rintro rfl
    exact hne (by simp)
  have hrest : p.rest ≠ [] := by
    intro hnil
    apply hne
    simp [advance_offset, hnil]
  have hpos := List.length_pos_iff.mpr hrest
  simp only [advance_rest, List.length_drop]
  omega

end Position
end Compositing
