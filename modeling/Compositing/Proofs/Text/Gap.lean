import Compositing.Proofs.Text.Advance

/-! # Gaps

    What may stand between the parts of a text: white space and `//` comments,
    each with its line end.  At the end of a text a comment needs no line end.
    Skipping takes a gap whole and stops at anything that begins with neither. -/

namespace Compositing

/-! ## Gaps and what is none -/

namespace Text

/-- White space and comments, each comment with its line end. -/
inductive IsGap : List Char → Prop where
  | nil : IsGap []
  | blank {c rest} (hc : isBlank c = true) (hrest : IsGap rest) : IsGap (c :: rest)
  | comment {body rest} (hbody : '\n' ∉ body) (hrest : IsGap rest) :
    IsGap ('/' :: '/' :: (body ++ '\n' :: rest))

/-- A gap that may end in a comment without line end. -/
def IsEnding (text : List Char) : Prop :=
  ∃ gap, IsGap gap ∧ (text = gap ∨ ∃ body, '\n' ∉ body ∧ text = gap ++ '/' :: '/' :: body)

/-- The text begins with neither white space nor a comment. -/
structure IsPlain (text : List Char) : Prop where
  blank : ∀ c ∈ text.head?, isBlank c = false
  comment : ¬ ['/', '/'] <+: text

theorem isPlain_nil : IsPlain [] := by
  constructor
  · simp
  · simp

/-- A character that is neither white space nor a slash begins a plain text. -/
theorem isPlain_cons {c : Char} (rest : List Char) (hblank : isBlank c = false)
    (hslash : c ≠ '/') : IsPlain (c :: rest) := by
  constructor
  · simpa using hblank
  · intro hcomment
    rw [List.cons_prefix_cons] at hcomment
    exact hslash hcomment.1.symm

/-- Two gaps make one. -/
theorem IsGap.append {gap gap' : List Char} (h : IsGap gap) (h' : IsGap gap') :
    IsGap (gap ++ gap') := by
  induction h with
  | nil => exact h'
  | blank hc _ ih => exact .blank hc ih
  | comment hbody _ ih =>
    simp only [List.cons_append, List.append_assoc]
    exact .comment hbody ih

/-- Every text begins with a gap.  What follows is plain, or a comment that ends the text. -/
theorem exists_gap (text : List Char) :
    ∃ gap rest, text = gap ++ rest ∧ IsGap gap ∧
      (IsPlain rest ∨ ∃ body, '\n' ∉ body ∧ rest = '/' :: '/' :: body) := by
  match text with
  | [] => exact ⟨[], [], rfl, .nil, .inl isPlain_nil⟩
  | c :: text =>
    by_cases hblank : isBlank c = true
    · obtain ⟨gap, rest, rfl, hgap, hrest⟩ := exists_gap text
      exact ⟨c :: gap, rest, rfl, .blank hblank hgap, hrest⟩
    · by_cases hcomment : ['/', '/'] <+: c :: text
      · obtain ⟨inner, hinner⟩ := hcomment
        by_cases hline : '\n' ∈ inner
        · obtain ⟨body, after, rfl, hbody⟩ := List.eq_append_cons_of_mem hline
          obtain ⟨gap, rest, rfl, hgap, hrest⟩ := exists_gap after
          refine ⟨'/' :: '/' :: (body ++ '\n' :: gap), rest, ?_, .comment hbody hgap, hrest⟩
          rw [← hinner]
          simp
        · exact ⟨[], c :: text, rfl, .nil, .inr ⟨inner, hline, hinner.symm⟩⟩
      · exact ⟨[], c :: text, rfl, .nil, .inl ⟨by simpa using hblank, hcomment⟩⟩
termination_by text.length
decreasing_by
  · simp
  · have hlength := congrArg List.length hinner
    simp at hlength ⊢
    omega

end Text

/-! ## Skipping -/

namespace Position

/-- Inside a comment everything but a line end is skipped. -/
theorem triviaLength_go_comment {body : List Char} (hbody : '\n' ∉ body) (rest : List Char)
    (taken : Nat) :
    triviaLength.go true taken (body ++ rest) =
      triviaLength.go true (taken + body.length) rest := by
  induction body generalizing taken with
  | nil => simp
  | cons c body ih =>
    have hc : (c != '\n') = true := by
      have hne : c ≠ '\n' := by
        intro h
        exact hbody (by simp [h])
      simpa using hne
    have hbody' : '\n' ∉ body := fun h => hbody (by simp [h])
    have hstep := ih hbody' (taken + 1)
    simp only [List.cons_append, triviaLength.go, if_true, hc, hstep, List.length_cons]
    congr 1
    omega

/-- A gap is skipped whole. -/
theorem triviaLength_go_gap {gap : List Char} (hgap : Text.IsGap gap) (rest : List Char)
    (taken : Nat) :
    triviaLength.go false taken (gap ++ rest) =
      triviaLength.go false (taken + gap.length) rest := by
  induction hgap generalizing taken with
  | nil => simp
  | blank hc _ ih =>
    have hstep := ih (taken + 1)
    simp only [List.cons_append, triviaLength.go, hc, Bool.false_eq_true, if_false, if_true,
      hstep, List.length_cons]
    congr 1
    omega
  | comment hbody _ ih =>
    rename_i body after _
    have hopen : triviaLength.go false taken ('/' :: '/' :: (body ++ '\n' :: after) ++ rest) =
        triviaLength.go true (taken + 2) (body ++ '\n' :: (after ++ rest)) := by
      simp [triviaLength.go, Text.isBlank, Text.blankRanges]
    have hclose : ∀ taken, triviaLength.go true taken ('\n' :: (after ++ rest)) =
        triviaLength.go false (taken + 1) (after ++ rest) := fun _ => rfl
    rw [hopen, triviaLength_go_comment hbody, hclose, ih]
    congr 1
    simp only [List.length_cons, List.length_append]
    omega

/-- Nothing is skipped of a plain text. -/
theorem triviaLength_go_plain {text : List Char} (h : Text.IsPlain text) (taken : Nat) :
    triviaLength.go false taken text = taken := by
  cases text with
  | nil => rfl
  | cons c rest =>
    have hblank : Text.isBlank c = false := h.blank c (by simp)
    have hcomment : ¬ (c = '/' ∧ rest.head? = some '/') := by
      intro hslashes
      apply h.comment
      cases rest with
      | nil => simp at hslashes
      | cons d rest =>
        obtain ⟨hc, hd⟩ := hslashes
        simp only [List.head?_cons, Option.some.injEq] at hd
        rw [hc, hd]
        exact ⟨rest, rfl⟩
    simp only [triviaLength.go, hblank, Bool.false_eq_true, if_false]
    rw [if_neg]
    simpa using hcomment

/-- The gap before a plain text is what is skipped. -/
theorem triviaLength_gap {gap rest : List Char} (hgap : Text.IsGap gap)
    (hrest : Text.IsPlain rest) : triviaLength (gap ++ rest) = gap.length := by
  rw [triviaLength, triviaLength_go_gap hgap, triviaLength_go_plain hrest]
  omega

/-- After a gap, a plain text is what skipping leads to. -/
theorem skipTrivia_rest {p : Position} {gap rest : List Char} (hp : p.rest = gap ++ rest)
    (hgap : Text.IsGap gap) (hrest : Text.IsPlain rest) : p.skipTrivia.rest = rest := by
  rw [skipTrivia, advance_rest, hp, triviaLength_gap hgap hrest, List.drop_left]

theorem skipTrivia_between (before : List Char) {gap rest : List Char}
    (hgap : Text.IsGap gap) (hrest : Text.IsPlain rest) :
    (between before (gap ++ rest)).skipTrivia = between (before ++ gap) rest := by
  show (between before (gap ++ rest)).advance (triviaLength (gap ++ rest)) = _
  rw [triviaLength_gap hgap hrest, between_advance_length]

/-- Nothing is left after the ending of a text. -/
theorem skipTrivia_ending {p : Position} (hp : Text.IsEnding p.rest) : p.skipTrivia.rest = [] := by
  obtain ⟨gap, hgap, hrest | ⟨body, hbody, hrest⟩⟩ := hp
  · have hempty : p.rest = gap ++ [] := by simp [hrest]
    exact skipTrivia_rest hempty hgap Text.isPlain_nil
  · have hopen : ∀ taken, triviaLength.go false taken ('/' :: '/' :: body) =
        triviaLength.go true (taken + 2) body := by
      intro taken
      simp [triviaLength.go, Text.isBlank, Text.blankRanges]
    have hlength : triviaLength p.rest = p.rest.length := by
      rw [hrest, triviaLength, triviaLength_go_gap hgap, hopen]
      have hbody' := triviaLength_go_comment hbody [] (0 + gap.length + 2)
      rw [List.append_nil] at hbody'
      rw [hbody', triviaLength.go]
      simp only [List.length_append, List.length_cons]
      omega
    rw [skipTrivia, advance_rest, hlength, List.drop_length]

end Position
end Compositing
