import Compositing.Proofs.Text.Spelling

/-! # Texts that are the same keyword

    One text spells another letter by letter if both are the same, or have the
    same letters where case does not count.

    Where case does not count, a literal is found wherever one is that differs
    from it in the case of letters only: white space has no case, so both have
    the same words up to case, and words are compared letter by letter without
    regard to it.  So texts that a lexicon takes for the same keyword are found
    at the same places and have the same length there. -/

namespace Compositing

/-! ## Words up to case -/

namespace Text

theorem isBlank_toLower (c : Char) : isBlank c.toLower = isBlank c := by
  by_cases hword : isWordChar c = true
  · have hlower : isWordChar c.toLower = true := by
      rw [isWordChar_toLower, hword]
    rw [isBlank_of_isWordChar hword, isBlank_of_isWordChar hlower]
  · -- only letters change, and they stand in words
    have hsame : c.toLower = c := by
      rw [← Char.toNat_inj, toNat_toLower, if_neg]
      intro hcapital
      exact hword ((isWordChar_iff c).mpr (.inl hcapital))
    rw [hsame]

theorem words_go_foldCase (run text : List Char) :
    words.go (foldCase run) (foldCase text) = (words.go run text).map foldCase := by
  induction text generalizing run with
  | nil =>
    cases run with
    | nil => rfl
    | cons c run => simp [words.go, foldCase]
  | cons c text ih =>
    have hrun : foldCase (c :: run) = c.toLower :: foldCase run := rfl
    have htext : foldCase (c :: text) = c.toLower :: foldCase text := rfl
    have hempty : (foldCase run).isEmpty = run.isEmpty := by
      cases run <;> rfl
    rw [htext, words.go, words.go, isBlank_toLower, hempty]
    by_cases hblank : isBlank c = true
    · have hnil := ih []
      have hreverse : (foldCase run).reverse = foldCase run.reverse := by
        simp [foldCase]
      simp only [hblank, Bool.not_true, Bool.false_eq_true, if_false]
      split
      · exact hnil
      · rw [List.map_cons, hreverse]
        exact congrArg _ hnil
    · simp only [hblank, Bool.not_false, if_true]
      rw [← hrun]
      exact ih (c :: run)

/-- The words of a text without capitals are those of the text without capitals. -/
theorem words_foldCase (text : List Char) : words (foldCase text) = (words text).map foldCase :=
  words_go_foldCase [] text

theorem ne_nil_of_words_go {run text : List Char} (h : words.go run text = []) :
    run = [] ∧ isAllBlank text = true := by
  induction text generalizing run with
  | nil =>
    cases run with
    | nil => exact ⟨rfl, rfl⟩
    | cons c run => simp [words.go] at h
  | cons c text ih =>
    rw [words.go] at h
    by_cases hblank : isBlank c = true
    · simp only [hblank, Bool.not_true, Bool.false_eq_true, if_false] at h
      split at h
      · rename_i hrun
        obtain ⟨_, htext⟩ := ih h
        exact ⟨List.isEmpty_iff.mp hrun, by rw [isAllBlank, List.all_cons, hblank]; exact htext⟩
      · cases h
    · simp only [hblank, Bool.not_false, if_true] at h
      cases (ih h).1

/-- A text that is not blank has a word. -/
theorem words_ne_nil {text : List Char} (h : isAllBlank text = false) : words text ≠ [] := by
  intro hwords
  rw [(ne_nil_of_words_go hwords).2] at h
  cases h

end Text

/-! ## Spellings -/

namespace Text

/-- A text spells the texts with the same letters. -/
theorem spells_iff {caseSensitive : Bool} {word text : List Char} :
    Spells caseSensitive word text ↔
      if caseSensitive then word = text else foldCase word = foldCase text := by
  induction word generalizing text with
  | nil =>
    cases text with
    | nil => exact ⟨fun _ => by simp, fun _ => .nil⟩
    | cons c text => exact ⟨nofun, fun h => by simp [foldCase] at h⟩
  | cons w word ih =>
    cases text with
    | nil => exact ⟨nofun, fun h => by simp [foldCase] at h⟩
    | cons c text =>
      have hcons : Spells caseSensitive (w :: word) (c :: text) ↔
          sameLetter caseSensitive w c = true ∧ Spells caseSensitive word text := by
        constructor
        · intro h
          cases h with
          | cons hletter hrest => exact ⟨hletter, hrest⟩
        · intro h
          exact .cons h.1 h.2
      rw [hcons, ih]
      cases caseSensitive <;> simp [sameLetter, foldCase]

end Text

/-! ## Literals up to case -/

namespace Text

theorem toLower_toLower (c : Char) : c.toLower.toLower = c.toLower := by
  rw [← Char.toNat_inj, toNat_toLower, if_neg]
  rw [toNat_toLower]
  split <;> omega

end Text

namespace Lexeme

theorem afterWord?_foldCase (word text : List Char) :
    afterWord? false (Text.foldCase word) text = afterWord? false word text := by
  induction word generalizing text with
  | nil => rfl
  | cons w word ih =>
    cases text with
    | nil => rfl
    | cons c text =>
      have hletter : Text.sameLetter false w.toLower c = Text.sameLetter false w c := by
        simp only [Text.sameLetter, Bool.false_eq_true, if_false, Text.toLower_toLower]
      have hfold : Text.foldCase (w :: word) = w.toLower :: Text.foldCase word := rfl
      rw [hfold, afterWord?, afterWord?, hletter, ih]

theorem spacedWordsLength?_foldCase (words : List (List Char)) (text : List Char) :
    spacedWordsLength? false (words.map Text.foldCase) text =
      spacedWordsLength? false words text := by
  induction words generalizing text with
  | nil => rfl
  | cons word words ih =>
    have hlength : (Text.foldCase word).length = word.length := List.length_map _
    simp only [List.map_cons, spacedWordsLength?, afterWord?_foldCase, hlength, ih]

/-- A literal that is not blank is found where it is found without capitals. -/
theorem matchLiteral_foldCase {literal : List Char} (h : Text.words literal ≠ [])
    (text : List Char) :
    matchLiteral false (Text.foldCase literal) text = matchLiteral false literal text := by
  unfold matchLiteral
  rw [Text.words_foldCase]
  cases hwords : Text.words literal with
  | nil => exact absurd hwords h
  | cons word words =>
    have hlength : (Text.foldCase word).length = word.length := List.length_map _
    simp only [List.map_cons, afterWord?_foldCase, spacedWordsLength?_foldCase, hlength]

end Lexeme

/-- Texts that are the same keyword are found at the same places, with the same length. -/
theorem Lexicon.matchLiteral_of_key {α : Type} {lexicon : Lexicon α} {a b : String}
    (h : lexicon.key a = lexicon.key b) (hb : Text.isAllBlank b.toList = false)
    (text : List Char) :
    Lexeme.matchLiteral lexicon.caseSensitive a.toList text =
      Lexeme.matchLiteral lexicon.caseSensitive b.toList text := by
  unfold key at h
  cases hcase : lexicon.caseSensitive with
  | true =>
    simp only [hcase, if_true] at h
    rw [h]
  | false =>
    simp only [hcase, Bool.false_eq_true, if_false] at h
    have hfold : Text.foldCase a.toList = Text.foldCase b.toList := String.ofList_injective h
    have hwordsb : Text.words b.toList ≠ [] := Text.words_ne_nil hb
    -- the first text is not blank either, as folding keeps the number of words
    have hwordsa : Text.words a.toList ≠ [] := by
      intro hnil
      have hwords := congrArg Text.words hfold
      rw [Text.words_foldCase, Text.words_foldCase, hnil] at hwords
      exact hwordsb (List.map_eq_nil_iff.mp hwords.symm)
    rw [← Lexeme.matchLiteral_foldCase hwordsa, hfold, Lexeme.matchLiteral_foldCase hwordsb]

end Compositing
