import Compositing.Proofs.Text.Continuing

/-! # Cursors

    A cursor goes through a text in two ways: it skips white space and
    comments, or it takes a number of bytes.  Skipping is a loop whose rounds
    pass the white space ahead or else one comment.  It ends on every text,
    because a round passes something, and it ends in front of something that
    is neither.

    However a cursor has moved, its line is one more than the line ends behind
    it. -/

namespace Compositing

/-! ## Trivia -/

namespace Text

/-- A piece of trivia in front of `rest`: a white space character, or a comment that reaches
    exactly to the next line end or to the end of the text. -/
inductive IsTrivium (rest : List Char) : List Char → Prop where
  | blank {c} (hc : isBlank c = true) : IsTrivium rest [c]
  | comment {body} (hbody : '\n' ∉ body) (hrest : rest = [] ∨ rest.head? = some '\n') :
    IsTrivium rest ('/' :: '/' :: body)

/-- Pieces of trivia, one behind the other, in front of `rest`. -/
inductive IsTrivia (rest : List Char) : List Char → Prop where
  | nil : IsTrivia rest []
  | cons {piece pieces} (hpiece : IsTrivium (pieces ++ rest) piece)
    (hpieces : IsTrivia rest pieces) : IsTrivia rest (piece ++ pieces)

variable {rest : List Char}

/-- White space goes in front of trivia. -/
theorem IsTrivia.blanks {blanks pieces : List Char} (hblanks : ∀ c ∈ blanks, isBlank c = true)
    (hpieces : IsTrivia rest pieces) : IsTrivia rest (blanks ++ pieces) := by
  induction blanks with
  | nil => exact hpieces
  | cons c blanks ih =>
    have htail : IsTrivia rest (blanks ++ pieces) :=
      ih fun d hd => hblanks d (List.mem_cons_of_mem c hd)
    show IsTrivia rest ([c] ++ (blanks ++ pieces))
    exact .cons (.blank (hblanks c List.mem_cons_self)) htail

/-- Up to its line end a comment is a piece of trivia. -/
theorem isTrivium_comment (inner : List Char) :
    IsTrivium (inner.dropWhile (· != '\n')) ('/' :: '/' :: inner.takeWhile (· != '\n')) := by
  have hbody : '\n' ∉ inner.takeWhile (· != '\n') := by
    intro hmem
    simpa using List.all_eq_true.mp List.all_takeWhile _ hmem
  have hend : inner.dropWhile (· != '\n') = [] ∨
      (inner.dropWhile (· != '\n')).head? = some '\n' := by
    cases hdrop : inner.dropWhile (· != '\n') with
    | nil => exact .inl rfl
    | cons c rest =>
      have hc := List.head?_dropWhile_not (· != '\n') inner
      rw [hdrop] at hc
      right
      simpa using hc
  exact .comment hbody hend

end Text

namespace Position

/-- At a line end and at the end of the text it does not matter whether a comment is open. -/
theorem triviaLength_go_lineEnd {text : List Char} (h : text = [] ∨ text.head? = some '\n')
    (taken : Nat) : triviaLength.go true taken text = triviaLength.go false taken text := by
  cases text with
  | nil => rfl
  | cons c text =>
    have hc : c = '\n' := by simpa using h
    rw [hc]
    rfl

/-- Trivia is counted whole, up to a plain text. -/
theorem triviaLength_trivia {skipped rest : List Char} (hskipped : Text.IsTrivia rest skipped)
    (hrest : Text.IsPlain rest) : triviaLength (skipped ++ rest) = skipped.length := by
  -- no comment is open between two pieces
  have hgo : ∀ taken, triviaLength.go false taken (skipped ++ rest) = taken + skipped.length := by
    induction hskipped with
    | nil => exact triviaLength_go_plain hrest
    | @cons piece pieces hpiece _ ih =>
      intro taken
      rw [List.append_assoc, List.length_append]
      cases hpiece with
      | blank hc =>
        show triviaLength.go false taken (_ :: (pieces ++ rest)) = _
        simp only [triviaLength.go, hc, Bool.false_eq_true, if_false, if_true, ih,
          List.length_singleton]
        omega
      | @comment body hbody hend =>
        have hopen : triviaLength.go false taken ('/' :: '/' :: body ++ (pieces ++ rest)) =
            triviaLength.go true (taken + 2) (body ++ (pieces ++ rest)) := by
          simp [triviaLength.go, Text.isBlank, Text.blankRanges]
        -- the comment ends where a line end is trivia as well
        rw [hopen, triviaLength_go_comment hbody, triviaLength_go_lineEnd hend, ih]
        simp only [List.length_cons]
        omega
  rw [triviaLength, hgo, Nat.zero_add]

/-! ## The loop -/

/-- One round of skipping: over all the white space ahead, or if there is none over the comment
    ahead. -/
def skipRound? (p : Position) : Option Position :=
  let blanks := p.rest.takeWhile Text.isBlank
  if !blanks.isEmpty then some (p.advance blanks.length)
  else if ['/', '/'].isPrefixOf p.rest then
    some (p.advance (p.rest.takeWhile (· != '\n')).length)
  else none

/-- The rounds from `p` on end, and they end at the second position. -/
inductive Skips : Position → Position → Prop where
  | stops {p} (hround : p.skipRound? = none) : Skips p p
  | goes {p q r} (hround : p.skipRound? = some q) (hrest : Skips q r) : Skips p r

/-- A round passes white space or a comment, or the text ahead is plain. -/
theorem skipRound?_cases (p : Position) :
    (p.skipRound? = none ∧ Text.IsPlain p.rest) ∨
      ∃ passed rest, p.rest = passed ++ rest ∧ passed ≠ [] ∧
        p.skipRound? = some (p.advance passed.length) ∧
        ((∀ c ∈ passed, Text.isBlank c = true) ∨ Text.IsTrivium rest passed) := by
  by_cases hblanks : p.rest.takeWhile Text.isBlank = []
  · have hblank : ∀ c ∈ p.rest.head?, Text.isBlank c = false := by
      intro c hc
      obtain ⟨rest, hrest⟩ := List.head?_eq_some_iff.mp hc
      rw [hrest] at hblanks
      simpa [List.takeWhile_cons] using hblanks
    by_cases hcomment : ['/', '/'] <+: p.rest
    · right
      obtain ⟨inner, hinner⟩ := hcomment
      -- the comment is cut from what follows at its line end
      have hcut : p.rest = '/' :: '/' :: inner.takeWhile (· != '\n') ++
          inner.dropWhile (· != '\n') := by
        rw [← hinner]
        simp
      refine ⟨_, _, hcut, List.cons_ne_nil _ _, ?_, .inr (Text.isTrivium_comment inner)⟩
      simp [skipRound?, ← hinner, Text.isBlank, Text.blankRanges]
    · left
      refine ⟨?_, hblank, hcomment⟩
      rw [← List.isPrefixOf_iff_prefix] at hcomment
      simp [skipRound?, hblanks, hcomment]
  · right
    refine ⟨_, _, List.takeWhile_append_dropWhile.symm, hblanks, ?_, .inl ?_⟩
    · simp [skipRound?, hblanks]
    · exact List.all_eq_true.mp List.all_takeWhile

/-- The loop ends, and what it has passed is trivia in front of a plain text. -/
theorem exists_skips (p : Position) :
    ∃ skipped rest, p.rest = skipped ++ rest ∧ Text.IsTrivia rest skipped ∧
      Text.IsPlain rest ∧ Skips p (p.advance skipped.length) := by
  rcases p.skipRound?_cases with ⟨hround, hplain⟩ | ⟨passed, after, hrest, hne, hround, hpassed⟩
  · exact ⟨[], p.rest, rfl, .nil, hplain, by simpa using Skips.stops hround⟩
  · have hafter : (p.advance passed.length).rest = after := by
      rw [advance_rest, hrest, List.drop_left]
    obtain ⟨pieces, rest, hpieces, htrivia, hplain, hskips⟩ :=
      exists_skips (p.advance passed.length)
    rw [hafter] at hpieces
    rw [← advance_add, ← List.length_append] at hskips
    refine ⟨passed ++ pieces, rest, ?_, ?_, hplain, .goes hround hskips⟩
    · rw [hrest, hpieces, List.append_assoc]
    · rcases hpassed with hblanks | hpiece
      · exact htrivia.blanks hblanks
      · rw [hpieces] at hpiece
        exact .cons hpiece htrivia
termination_by p.rest.length
decreasing_by
  have hlength := List.length_pos_iff.mpr hne
  rw [hafter, hrest, List.length_append]
  omega

/-! ## Cursors -/

/-- A number of bytes that ends between two characters ahead, or past the end of the text. -/
def Fits (bytes : Nat) (p : Position) : Prop :=
  (∃ passed ahead, p.rest = passed ++ ahead ∧ bytes = Text.byteLength passed) ∨
    Text.byteLength p.rest ≤ bytes

/-- What a fresh cursor on `text` comes to by skipping and advancing. -/
inductive IsCursor (text : List Char) : Position → Prop where
  | fresh : IsCursor text (start text)
  | skip {p} (h : IsCursor text p) : IsCursor text p.skipTrivia
  | advance {p} {bytes : Nat} (h : IsCursor text p) (hfits : Fits bytes p) :
    IsCursor text (p.advanceBytes bytes)

/-- Bytes past the end fit all the characters. -/
theorem charactersWithin_of_le {bytes : Nat} {text : List Char}
    (h : Text.byteLength text ≤ bytes) : charactersWithin bytes text = text.length := by
  have hgo : ∀ bytes taken, Text.byteLength text ≤ bytes →
      charactersWithin.go bytes taken text = taken + text.length := by
    clear h
    induction text with
    | nil => exact fun _ _ _ => rfl
    | cons c text ih =>
      intro bytes taken h
      rw [Text.byteLength_cons] at h
      rw [charactersWithin.go, if_pos (by omega), ih _ _ (by omega), List.length_cons]
      omega
  rw [charactersWithin, hgo _ _ h, Nat.zero_add]

/-- Fitting bytes pass characters ahead, all of them at most. -/
theorem Fits.exists_passed {bytes : Nat} {p : Position} (h : Fits bytes p) :
    ∃ passed ahead, p.rest = passed ++ ahead ∧ p.advanceBytes bytes = p.advance passed.length ∧
      Text.byteLength passed = min bytes (Text.byteLength p.rest) := by
  rcases h with ⟨passed, ahead, hrest, rfl⟩ | hpast
  · refine ⟨passed, ahead, hrest, ?_, ?_⟩
    · rw [advanceBytes, hrest, charactersWithin_append]
    · rw [hrest, Text.byteLength_append]
      omega
  · refine ⟨p.rest, [], by simp, ?_, ?_⟩
    · rw [advanceBytes, charactersWithin_of_le hpast]
    · omega

/-- A cursor stands between two parts of its text. -/
theorem IsCursor.exists_between {text : List Char} {p : Position} (h : IsCursor text p) :
    ∃ before after, text = before ++ after ∧ p = between before after := by
  -- a move of either kind passes some characters that are ahead
  have hmove : ∀ {p : Position} (n : Nat),
      (∃ before after, text = before ++ after ∧ p = between before after) →
        ∃ before after, text = before ++ after ∧ p.advance n = between before after := by
    rintro p n ⟨before, after, rfl, rfl⟩
    exact ⟨before ++ after.take n, after.drop n, by simp, between_advance n before after⟩
  induction h with
  | fresh => exact ⟨[], text, rfl, rfl⟩
  | skip _ ih => exact hmove _ ih
  | advance _ _ ih => exact hmove _ ih

/-! ## In step -/

/-- At every character boundary of a text, skipping passes pieces of trivia and stops in front of
    what begins with none; the line grows by the line ends passed, the loop that skips ends, and
    to skip again changes nothing.  So the line of every cursor on the text is one more than the
    line ends in front of its offset, and bytes that fit move it by as many, up to the end. -/
theorem cursor_in_step (text : List Char) :
    (∀ before after line, text = before ++ after →
      ∃ skipped rest, after = skipped ++ rest ∧
        Text.IsTrivia rest skipped ∧ Text.IsPlain rest ∧
        skipTrivia ⟨after, Text.byteLength before, line⟩ =
          ⟨rest, Text.byteLength (before ++ skipped), line + Text.newlines skipped⟩ ∧
        Skips ⟨after, Text.byteLength before, line⟩
          (skipTrivia ⟨after, Text.byteLength before, line⟩) ∧
        skipTrivia (skipTrivia ⟨after, Text.byteLength before, line⟩) =
          skipTrivia ⟨after, Text.byteLength before, line⟩) ∧
    ∀ p, IsCursor text p →
      (∃ before, text = before ++ p.rest ∧ p.offset = Text.byteLength before ∧
        p.line = 1 + Text.newlines before) ∧
      ∀ bytes, Fits bytes p →
        (p.advanceBytes bytes).offset = min (p.offset + bytes) (Text.byteLength text) := by
  constructor
  · intro before after line _
    obtain ⟨skipped, rest, hafter, htrivia, hplain, hskips⟩ :=
      exists_skips ⟨after, Text.byteLength before, line⟩
    simp only at hafter
    have hskip : skipTrivia ⟨after, Text.byteLength before, line⟩ =
        advance skipped.length ⟨after, Text.byteLength before, line⟩ := by
      rw [skipTrivia, hafter, triviaLength_trivia htrivia hplain]
    have hmoved : skipTrivia ⟨after, Text.byteLength before, line⟩ =
        ⟨rest, Text.byteLength (before ++ skipped), line + Text.newlines skipped⟩ := by
      rw [hskip, advance_eq, hafter]
      simp
    refine ⟨skipped, rest, hafter, htrivia, hplain, hmoved, by rwa [hskip], ?_⟩
    rw [hmoved]
    exact skipTrivia_plain hplain
  · intro p hp
    obtain ⟨before, after, htext, rfl⟩ := hp.exists_between
    refine ⟨⟨before, htext, rfl, rfl⟩, ?_⟩
    intro bytes hfits
    obtain ⟨passed, ahead, hrest, hmove, hlength⟩ := hfits.exists_passed
    rw [hmove, advance_offset, hrest, List.take_left, hlength, htext, Text.byteLength_append]
    simp only [between]
    omega

/-- A comment without a line end, behind a comment with one: the loop comes to the end of the
    text, and a cursor that skips is then on the third line. -/
theorem cursor_in_step_comment :
    Skips (start "  // note\n\t\n// more".toList) ⟨[], 19, 3⟩ ∧
      ∃ before, "  // note\n\t\n// more".toList = before ++ [] ∧ 19 = Text.byteLength before ∧
        3 = 1 + Text.newlines before := by
  have hskip : skipTrivia (start "  // note\n\t\n// more".toList) = ⟨[], 19, 3⟩ := by
    decide
  obtain ⟨hboundary, hcursor⟩ := cursor_in_step "  // note\n\t\n// more".toList
  obtain ⟨_, _, _, _, _, _, hskips, _⟩ := hboundary [] _ 1 rfl
  have hreached : IsCursor "  // note\n\t\n// more".toList ⟨[], 19, 3⟩ := by
    rw [← hskip]
    exact .skip .fresh
  have hend := (hcursor _ hreached).1
  constructor
  · rw [← hskip]
    exact hskips
  · exact hend

end Position
end Compositing
