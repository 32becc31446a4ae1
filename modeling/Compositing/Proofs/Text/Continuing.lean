import Compositing.Proofs.Text.Gap

/-! # Texts that go on

    A text is continued by a line end and more text.  Skipping white space and
    comments stops where it did, unless it came to the end of the text: the
    line end ends a comment that was open there, and skipping goes on into
    what was appended. -/

namespace Compositing

/-! ## Continued positions -/

namespace Position

/-- The same place with a line end and more text behind the text. -/
def continued (more : List Char) (p : Position) : Position :=
  { p with rest := p.rest ++ '\n' :: more }

variable (more : List Char) (p : Position)

@[simp] theorem continued_rest : (p.continued more).rest = p.rest ++ '\n' :: more := rfl

@[simp] theorem continued_offset : (p.continued more).offset = p.offset := rfl

/-- A move within the text goes alike. -/
theorem continued_advance {n : Nat} (h : n ≤ p.rest.length) :
    (p.continued more).advance n = (p.advance n).continued more := by
  simp only [advance_eq, continued, List.drop_append_of_le_length h,
    List.take_append_of_le_length h]

end Position

/-! ## Endings -/

namespace Text
variable {text : List Char}

/-- A line end makes a gap of an ending: it ends a comment too. -/
theorem IsEnding.gap (h : IsEnding text) : IsGap (text ++ ['\n']) := by
  obtain ⟨gap, hgap, rfl | ⟨body, hbody, rfl⟩⟩ := h
  · exact hgap.append (.blank (by decide) .nil)
  · rw [List.append_assoc]
    exact hgap.append (.comment hbody .nil)

/-- A text that is no ending has something behind its first gap. -/
theorem exists_plain (h : ¬ IsEnding text) :
    ∃ gap rest, text = gap ++ rest ∧ IsGap gap ∧ IsPlain rest ∧ rest ≠ [] := by
  obtain ⟨gap, rest, rfl, hgap, hplain | ⟨body, hbody, rfl⟩⟩ := exists_gap text
  · refine ⟨gap, rest, rfl, hgap, hplain, ?_⟩
    rintro rfl
    exact h ⟨gap, hgap, .inl (List.append_nil gap)⟩
  · exact absurd ⟨gap, hgap, .inr ⟨body, hbody, rfl⟩⟩ h

/-- A plain text stays plain when a line end follows. -/
theorem IsPlain.continued (h : IsPlain text) (hne : text ≠ []) (more : List Char) :
    IsPlain (text ++ '\n' :: more) := by
  obtain ⟨c, rest, rfl⟩ := List.exists_cons_of_ne_nil hne
  refine ⟨h.blank, fun hcomment => h.comment ?_⟩
  -- the second slash is no line end, so it is in the text
  cases rest with
  | nil => simp at hcomment
  | cons d rest => simpa using hcomment

end Text

namespace Position
variable {p : Position} (more : List Char)

/-- In front of something, skipping stops where it did. -/
theorem continued_skipTrivia (h : ¬ Text.IsEnding p.rest) :
    (p.continued more).skipTrivia = (p.skipTrivia).continued more := by
  obtain ⟨gap, rest, hrest, hgap, hplain, hne⟩ := Text.exists_plain h
  have hlength : triviaLength (p.rest ++ '\n' :: more) = triviaLength p.rest := by
    rw [hrest, triviaLength_gap hgap hplain, List.append_assoc,
      triviaLength_gap hgap (hplain.continued hne more)]
  have hle : triviaLength p.rest ≤ p.rest.length := by
    rw [hrest, triviaLength_gap hgap hplain, List.length_append]
    omega
  rw [skipTrivia, continued_rest, hlength, continued_advance more p hle]
  rfl

/-- Where nothing is skipped skipping stays. -/
theorem skipTrivia_plain (h : Text.IsPlain p.rest) : p.skipTrivia = p := by
  have hlength : triviaLength p.rest = 0 := triviaLength_go_plain h 0
  rw [skipTrivia, hlength, advance_zero]

/-- What was taken before is only added. -/
theorem triviaLength_go_add (inComment : Bool) (taken : Nat) (text : List Char) :
    triviaLength.go inComment taken text = taken + triviaLength.go inComment 0 text := by
  induction text generalizing inComment taken with
  | nil => rfl
  | cons c text ih =>
    simp only [triviaLength.go]
    split
    · rw [ih _ (taken + 1), ih _ (0 + 1)]
      omega
    · split
      · rw [ih _ (taken + 1), ih _ (0 + 1)]
        omega
      · split
        · rw [ih _ (taken + 1), ih _ (0 + 1)]
          omega
        · rfl

/-- Skipping from the front of a gap goes on behind it. -/
theorem skipTrivia_gap {gap rest : List Char} (hp : p.rest = gap ++ rest)
    (hgap : Text.IsGap gap) : p.skipTrivia = (p.advance gap.length).skipTrivia := by
  have hlength : triviaLength p.rest = gap.length + triviaLength rest := by
    rw [hp, triviaLength, triviaLength_go_gap hgap, triviaLength_go_add, Nat.zero_add]
    rfl
  have hrest : (p.advance gap.length).rest = rest := by
    rw [advance_rest, hp, List.drop_left]
  rw [skipTrivia, skipTrivia, hlength, hrest, advance_add]

/-- At an ending, skipping goes on behind the line end. -/
theorem between_skipTrivia_ending (before : List Char) {ending : List Char}
    (h : Text.IsEnding ending) :
    (between before (ending ++ '\n' :: more)).skipTrivia =
      (between (before ++ ending ++ ['\n']) more).skipTrivia := by
  have hsplit : ending ++ '\n' :: more = (ending ++ ['\n']) ++ more := by simp
  rw [hsplit, skipTrivia_gap rfl h.gap, between_advance_length, List.append_assoc]

/-- What is left behind the white space of an ending and of what the text goes on with. -/
theorem continued_skipTrivia_ending (h : Text.IsEnding p.rest) :
    (p.continued more).skipTrivia.rest = (start more).skipTrivia.rest := by
  have hrest : (p.continued more).rest = (p.rest ++ ['\n']) ++ more := by simp
  rw [skipTrivia_gap hrest h.gap, skipTrivia, advance_rest, advance_rest, hrest, List.drop_left,
    skipTrivia, advance_rest]
  rfl

end Position
end Compositing
