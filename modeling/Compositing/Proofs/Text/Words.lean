import Compositing.Proofs.Text.Folding
import Mathlib.Data.List.Forall2

/-! # Words and the white space between them

    The words of a text are its runs without white space: whatever stands
    around the first and the last of them, and however much stands between two,
    is of no account.  Text that has the words of another with white space
    between any two, letter by letter up to case where case does not count,
    spells it; a literal is found where the text begins with such a spelling. -/

namespace Compositing

namespace Text
variable {caseSensitive : Bool} {word spelling gap text : List Char} {list : List (List Char)}

/-! ## Runs and gaps -/

/-- A word: at least one character, none of them white space. -/
def IsRun (word : List Char) : Prop := word ≠ [] ∧ ∀ c ∈ word, isBlank c = false

/-- White space between two words: at least one character. -/
def IsBreak (gap : List Char) : Prop := gap ≠ [] ∧ isAllBlank gap = true

theorem isAllBlank_cons (c : Char) (text : List Char) :
    isAllBlank (c :: text) = (isBlank c && isAllBlank text) := rfl

theorem IsBreak.eq_cons (h : IsBreak gap) :
    ∃ b rest, gap = b :: rest ∧ isBlank b = true ∧ isAllBlank rest = true := by
  obtain ⟨hne, hblank⟩ := h
  obtain ⟨b, rest, rfl⟩ := List.exists_cons_of_ne_nil hne
  rw [isAllBlank_cons, Bool.and_eq_true] at hblank
  exact ⟨b, rest, rfl, hblank⟩

theorem IsRun.eq_cons (h : IsRun word) : ∃ c rest, word = c :: rest ∧ isBlank c = false := by
  obtain ⟨hne, hrun⟩ := h
  obtain ⟨c, rest, rfl⟩ := List.exists_cons_of_ne_nil hne
  exact ⟨c, rest, rfl, hrun c List.mem_cons_self⟩

/-- A letter has no more white space for being spelled in the other case. -/
theorem isBlank_of_sameLetter {a b : Char} (h : sameLetter caseSensitive a b = true) :
    isBlank b = isBlank a := by
  rw [← isBlank_toLower b, ← toLower_of_sameLetter h, isBlank_toLower]

/-- The spelling of a word is a word. -/
theorem IsRun.of_spells (h : IsRun word) (hspells : Spells caseSensitive word spelling) :
    IsRun spelling := by
  obtain ⟨hne, hrun⟩ := h
  refine ⟨?_, ?_⟩
  · rintro rfl
    exact hne (List.eq_nil_of_length_eq_zero hspells.length_eq.symm)
  · clear hne
    induction hspells with
    | nil => nofun
    | cons hletter _ ih =>
      rw [List.forall_mem_cons] at hrun ⊢
      exact ⟨by rw [isBlank_of_sameLetter hletter, hrun.1], ih hrun.2⟩

/-- All the white space in front of a run is in front of it. -/
theorem takeWhile_gap (hgap : isAllBlank gap = true) (hrun : IsRun word) (text : List Char) :
    (gap ++ (word ++ text)).takeWhile isBlank = gap := by
  obtain ⟨c, rest, rfl, hc⟩ := hrun.eq_cons
  rw [List.takeWhile_append_of_pos (List.all_eq_true.mp hgap), List.cons_append,
    List.takeWhile_cons_of_neg (by simp [hc]), List.append_nil]

/-! ## The words of a text -/

/-- White space in front is of no account. -/
theorem words_blank_append (h : isAllBlank gap = true) (text : List Char) :
    words (gap ++ text) = words text := by
  induction gap with
  | nil => rfl
  | cons b gap ih =>
    rw [isAllBlank_cons, Bool.and_eq_true] at h
    rw [← ih h.2]
    simp [words, words.go, h.1]

theorem words_go_append (h : ∀ c ∈ word, isBlank c = false) (run text : List Char) :
    words.go run (word ++ text) = words.go (word.reverse ++ run) text := by
  induction word generalizing run with
  | nil => rfl
  | cons c word ih =>
    rw [List.forall_mem_cons] at h
    rw [List.cons_append, words.go, if_pos (by rw [h.1]; rfl), ih h.2, List.reverse_cons,
      List.append_assoc, List.singleton_append]

/-- A run with white space behind it is the first word. -/
theorem words_run_append (hrun : IsRun word) (hgap : IsBreak gap) (text : List Char) :
    words (word ++ gap ++ text) = word :: words text := by
  obtain ⟨b, rest, rfl, hb, hrest⟩ := hgap.eq_cons
  have hne : (word.reverse ++ []).isEmpty = false := by
    simp [hrun.1]
  rw [List.append_assoc, words, words_go_append hrun.2, List.cons_append, words.go,
    if_neg (by simp [hb]), hne, if_neg Bool.false_ne_true, ← words_blank_append hrest text]
  simp [words]

/-- A run with nothing but white space behind it is the only word. -/
theorem words_run_blank (hrun : IsRun word) (h : isAllBlank text = true) :
    words (word ++ text) = [word] := by
  by_cases hnil : text = []
  · rw [hnil, List.append_nil, words_of_not_blank hrun.1 hrun.2]
  · rw [← List.append_nil text, ← List.append_assoc, words_run_append hrun ⟨hnil, h⟩]
    rfl

/-- Only white space has no words. -/
theorem words_eq_nil_iff : words text = [] ↔ isAllBlank text = true := by
  constructor
  · intro h
    exact (ne_nil_of_words_go h).2
  · intro h
    rw [← List.append_nil text, words_blank_append h]
    rfl

/-! ## Words spelled apart -/

/-- The text spells the words in their order, with white space between any two. -/
inductive SpelledApart (caseSensitive : Bool) : (words : List (List Char)) → (text : List Char) →
    Prop where
  | last {word spelling : List Char} (hspells : Spells caseSensitive word spelling) :
    SpelledApart caseSensitive [word] spelling
  | more {word spelling gap rest : List Char} {words : List (List Char)}
    (hspells : Spells caseSensitive word spelling) (hgap : IsBreak gap)
    (hrest : SpelledApart caseSensitive words rest) :
    SpelledApart caseSensitive (word :: words) (spelling ++ gap ++ rest)

/-- What spells words begins with a run, so no white space is in front of it. -/
theorem SpelledApart.exists_run (h : SpelledApart caseSensitive list text)
    (hlist : ∀ word ∈ list, IsRun word) : ∃ run rest, IsRun run ∧ text = run ++ rest := by
  cases h with
  | last hspells =>
    exact ⟨_, [], (hlist _ List.mem_cons_self).of_spells hspells, (List.append_nil _).symm⟩
  | more hspells _ _ =>
    exact ⟨_, _, (hlist _ List.mem_cons_self).of_spells hspells, List.append_assoc _ _ _⟩

/-- What spells words has words that spell them, whatever white space is behind it. -/
theorem SpelledApart.words_append (h : SpelledApart caseSensitive list text)
    (hlist : ∀ word ∈ list, IsRun word) {after : List Char} (hafter : isAllBlank after = true) :
    List.Forall₂ (Spells caseSensitive) list (words (text ++ after)) := by
  induction h with
  | last hspells =>
    rw [words_run_blank ((hlist _ List.mem_cons_self).of_spells hspells) hafter]
    exact .cons hspells .nil
  | more hspells hgap _ ih =>
    rw [List.forall_mem_cons] at hlist
    rw [List.append_assoc, words_run_append (hlist.1.of_spells hspells) hgap]
    exact .cons hspells (ih hlist.2)

/-- Where case counts, words are spelled as they are written. -/
theorem forall₂_spells_true {other : List (List Char)} :
    List.Forall₂ (Spells true) list other ↔ list = other := by
  have hspells : Spells true = Eq := by
    funext word spelling
    simpa using @spells_iff true word spelling
  rw [hspells, List.forall₂_eq_eq_eq]

/-- A text is white space, or a run stands in it behind white space and with nothing, or white
    space, behind it. -/
theorem isAllBlank_or_exists_run (text : List Char) :
    isAllBlank text = true ∨ ∃ before run rest, text = before ++ (run ++ rest) ∧
      isAllBlank before = true ∧ IsRun run ∧ ∀ c ∈ rest.head?, isBlank c = true := by
  have hsplit : text.takeWhile isBlank ++ text.dropWhile isBlank = text :=
    List.takeWhile_append_dropWhile
  have hbefore : isAllBlank (text.takeWhile isBlank) = true := List.all_takeWhile
  cases hrest : text.dropWhile isBlank with
  | nil =>
    rw [hrest, List.append_nil] at hsplit
    exact .inl (hsplit ▸ hbefore)
  | cons c rest =>
    have hc : isBlank c = false := by
      simpa [hrest] using List.head?_dropWhile_not isBlank text
    have hrun : (c :: rest).takeWhile (!isBlank ·) ++ (c :: rest).dropWhile (!isBlank ·) =
        c :: rest := List.takeWhile_append_dropWhile
    refine .inr ⟨_, (c :: rest).takeWhile (!isBlank ·), (c :: rest).dropWhile (!isBlank ·), ?_,
      hbefore, ⟨?_, ?_⟩, ?_⟩
    · rw [hrun, ← hrest, hsplit]
    · simp [hc]
    · intro d hd
      simpa using List.all_eq_true.mp List.all_takeWhile d hd
    · intro d hd
      have := List.head?_dropWhile_not (!isBlank ·) (c :: rest)
      rw [Option.mem_def.mp hd] at this
      simpa using this

/-- The first word stands behind white space and in front of the others. -/
theorem exists_first (h : words text = word :: list) :
    ∃ before rest, text = before ++ (word ++ rest) ∧ isAllBlank before = true ∧ IsRun word ∧
      words rest = list ∧ ∀ c ∈ rest.head?, isBlank c = true := by
  rcases isAllBlank_or_exists_run text with hblank | ⟨before, run, rest, rfl, hbefore, hrun, hrest⟩
  · rw [words_eq_nil_iff.mpr hblank] at h
    cases h
  · have hwords : words (run ++ rest) = run :: words rest := by
      cases rest with
      | nil => rw [words_run_blank hrun rfl]; rfl
      | cons b rest =>
        have hb : IsBreak [b] := ⟨List.cons_ne_nil _ _, by simp [isAllBlank, hrest b rfl]⟩
        rw [← List.singleton_append, ← List.append_assoc, words_run_append hrun hb,
          words_blank_append hb.2]
    rw [words_blank_append hbefore, hwords] at h
    obtain ⟨rfl, rfl⟩ := List.cons.inj h
    exact ⟨before, rest, rfl, hbefore, hrun, rfl, hrest⟩

/-- The words of a text, none with white space in it, stand there with white space between any
    two and nothing else around them. -/
theorem exists_spelledApart (h : words text = word :: list) :
    ∃ before middle after, text = before ++ (middle ++ after) ∧ isAllBlank before = true ∧
      isAllBlank after = true ∧ (∀ run ∈ word :: list, IsRun run) ∧
      SpelledApart true (word :: list) middle := by
  induction list generalizing text word with
  | nil =>
    obtain ⟨before, after, rfl, hbefore, hrun, hafter, -⟩ := exists_first h
    exact ⟨before, word, after, rfl, hbefore, words_eq_nil_iff.mp hafter,
      List.forall_mem_singleton.mpr hrun, .last (.refl true word)⟩
  | cons next list ih =>
    obtain ⟨before, rest, rfl, hbefore, hrun, hwords, hblank⟩ := exists_first h
    obtain ⟨gap, middle, after, rfl, hgap, hafter, hruns, hmiddle⟩ := ih hwords
    refine ⟨before, word ++ gap ++ middle, after, by simp, hbefore, hafter,
      List.forall_mem_cons.mpr ⟨hrun, hruns⟩, .more (.refl true word) ⟨?_, hgap⟩ hmiddle⟩
    -- without a gap the next word would begin with the white space behind the first
    rintro rfl
    obtain ⟨run, rest, hrun, rfl⟩ := hmiddle.exists_run hruns
    obtain ⟨c, more, rfl, hc⟩ := hrun.eq_cons
    rw [hblank c rfl] at hc
    cases hc

/-- The words of a text are the runs that it is made of: white space stands between any two, and
    it may stand around them. -/
theorem words_eq_cons_iff :
    words text = word :: list ↔
      (∀ run ∈ word :: list, IsRun run) ∧ ∃ before middle after,
        text = before ++ (middle ++ after) ∧ isAllBlank before = true ∧
          isAllBlank after = true ∧ SpelledApart true (word :: list) middle := by
  constructor
  · intro h
    obtain ⟨before, middle, after, htext, hbefore, hafter, hruns, hmiddle⟩ := exists_spelledApart h
    exact ⟨hruns, before, middle, after, htext, hbefore, hafter, hmiddle⟩
  · rintro ⟨hruns, before, middle, after, rfl, hbefore, hafter, hmiddle⟩
    rw [words_blank_append hbefore]
    exact (forall₂_spells_true.mp (hmiddle.words_append hruns hafter)).symm

/-- No word has white space in it. -/
theorem isRun_of_mem_words (h : word ∈ words text) : IsRun word := by
  cases hwords : words text with
  | nil => rw [hwords] at h; cases h
  | cons first list => exact (words_eq_cons_iff.mp hwords).1 word (hwords ▸ h)

end Text

/-! ## Where a literal is found -/

namespace Lexeme
variable {caseSensitive : Bool} {word literal text rest : List Char} {n : Nat}

/-- What is left behind a word is what follows a spelling of it. -/
theorem afterWord?_eq_some_iff :
    afterWord? caseSensitive word text = some rest ↔
      ∃ spelling, text = spelling ++ rest ∧ Text.Spells caseSensitive word spelling := by
  constructor
  · exact spells_of_afterWord?
  · rintro ⟨spelling, rfl, hspells⟩
    exact afterWord?_append hspells rest

/-- How many characters at the front of `text` spell a word and, with white space before each, the
    words behind it. -/
def leadingWordsLength? (caseSensitive : Bool) (word : List Char) (list : List (List Char))
    (text : List Char) : Option Nat :=
  (afterWord? caseSensitive word text).bind fun rest =>
    (spacedWordsLength? caseSensitive list rest).map (word.length + ·)

/-- A literal with words is looked for by its words. -/
theorem matchLiteral_of_words {list : List (List Char)} (h : Text.words literal = word :: list)
    (text : List Char) :
    matchLiteral caseSensitive literal text =
      leadingWordsLength? caseSensitive word list text := by
  unfold matchLiteral leadingWordsLength?
  rw [h]
  simp only
  cases afterWord? caseSensitive word text <;> rfl

/-- A literal without words is looked for as it stands. -/
theorem matchLiteral_of_no_words (h : Text.words literal = []) (hne : literal ≠ [])
    (text : List Char) :
    matchLiteral caseSensitive literal text =
      (afterWord? true literal text).map fun _ => literal.length := by
  unfold matchLiteral
  rw [h]
  simp only
  rw [if_neg (by simpa using hne)]

/-- Words with white space before each are looked for behind the first white space. -/
theorem spacedWordsLength?_cons (word : List Char) (list : List (List Char)) (text : List Char) :
    spacedWordsLength? caseSensitive (word :: list) text =
      if text.takeWhile Text.isBlank = [] then none
      else
        (leadingWordsLength? caseSensitive word list (text.dropWhile Text.isBlank)).map
          ((text.takeWhile Text.isBlank).length + ·) := by
  have hdrop : text.drop (text.takeWhile Text.isBlank).length = text.dropWhile Text.isBlank :=
    calc
      _ = (text.takeWhile Text.isBlank ++ text.dropWhile Text.isBlank).drop
            (text.takeWhile Text.isBlank).length := by rw [List.takeWhile_append_dropWhile]
      _ = text.dropWhile Text.isBlank := List.drop_left
  rw [spacedWordsLength?]
  split
  · rename_i hgap
    rw [if_pos (List.eq_nil_of_length_eq_zero hgap)]
  · rename_i hgap
    rw [if_neg fun h => hgap (by rw [h]; rfl), hdrop]
    unfold leadingWordsLength?
    cases afterWord? caseSensitive word (text.dropWhile Text.isBlank) with
    | none => rfl
    | some rest =>
      simp only [Option.bind_some, Option.map_map]
      congr 1
      funext length
      simp only [Function.comp_apply]
      omega

/-- Words are found at the front of a text that begins with a spelling of them, and it is as long
    as is found. -/
theorem leadingWordsLength?_eq_some_iff {list : List (List Char)}
    (hruns : ∀ run ∈ word :: list, Text.IsRun run) :
    leadingWordsLength? caseSensitive word list text = some n ↔
      ∃ before after, text = before ++ after ∧ n = before.length ∧
        Text.SpelledApart caseSensitive (word :: list) before := by
  unfold leadingWordsLength?
  induction list generalizing word text n with
  | nil =>
    simp only [spacedWordsLength?, Option.map_some, Option.bind_eq_some_iff, afterWord?_eq_some_iff]
    constructor
    · rintro ⟨rest, ⟨spelling, rfl, hspells⟩, hn⟩
      cases hn
      exact ⟨spelling, rest, rfl, hspells.length_eq.symm, .last hspells⟩
    · rintro ⟨before, after, rfl, rfl, hbefore⟩
      cases hbefore with
      | last hspells => exact ⟨after, ⟨before, rfl, hspells⟩, by simp [hspells.length_eq]⟩
      | more _ _ hrest => cases hrest
  | cons next list ih =>
    rw [List.forall_mem_cons] at hruns
    simp only [Option.bind_eq_some_iff, afterWord?_eq_some_iff, Option.map_eq_some_iff,
      spacedWordsLength?_cons, Option.ite_none_left_eq_some]
    constructor
    · rintro ⟨rest, ⟨spelling, rfl, hspells⟩, m, ⟨hgap, k, hk, rfl⟩, rfl⟩
      obtain ⟨before, after, hrest, rfl, hbefore⟩ := (ih hruns.2).mp hk
      refine ⟨spelling ++ rest.takeWhile Text.isBlank ++ before, after, ?_, ?_,
        .more hspells ⟨hgap, List.all_takeWhile⟩ hbefore⟩
      · rw [List.append_assoc, List.append_assoc, ← hrest, List.takeWhile_append_dropWhile]
      · simp only [List.length_append, hspells.length_eq]
        omega
    · rintro ⟨before, after, rfl, rfl, hbefore⟩
      cases hbefore with
      | @more _ spelling gap rest _ hspells hgap hrest =>
        -- all the white space behind the word is the gap, as a run follows it
        obtain ⟨run, more, hrun, rfl⟩ := hrest.exists_run hruns.2
        have htake : (gap ++ (run ++ more ++ after)).takeWhile Text.isBlank = gap := by
          rw [List.append_assoc]
          exact Text.takeWhile_gap hgap.2 hrun _
        have hdrop : (gap ++ (run ++ more ++ after)).dropWhile Text.isBlank =
            run ++ more ++ after := by
          have := List.takeWhile_append_dropWhile (p := Text.isBlank)
            (l := gap ++ (run ++ more ++ after))
          rw [htake] at this
          exact List.append_cancel_left this
        refine ⟨gap ++ (run ++ more ++ after), ⟨spelling, by simp, hspells⟩,
          gap.length + (run ++ more).length, ⟨?_, (run ++ more).length, ?_, ?_⟩, ?_⟩
        · rw [htake]
          exact hgap.1
        · rw [hdrop]
          exact (ih hruns.2).mpr ⟨run ++ more, after, rfl, rfl, hrest⟩
        · rw [htake]
        · simp only [List.length_append, hspells.length_eq]
          omega

/-- The text spells the literal: its words with white space between any two, or the literal
    itself where it has no words. -/
def SpellsLiteral (caseSensitive : Bool) (literal text : List Char) : Prop :=
  match Text.words literal with
  | [] => literal ≠ [] ∧ text = literal
  | word :: list => Text.SpelledApart caseSensitive (word :: list) text

/-- A literal is found where the text begins with a spelling of it, and it is as long as is found. -/
theorem matchLiteral_eq_some_iff :
    matchLiteral caseSensitive literal text = some n ↔
      ∃ before after, text = before ++ after ∧ n = before.length ∧
        SpellsLiteral caseSensitive literal before := by
  unfold SpellsLiteral
  cases hwords : Text.words literal with
  | nil =>
    simp only
    by_cases hne : literal = []
    · simp [hne, matchLiteral, Text.words, Text.words.go]
    · rw [matchLiteral_of_no_words hwords hne]
      simp only [Option.map_eq_some_iff, afterWord?_eq_some_iff, Text.spells_iff, if_true]
      constructor
      · rintro ⟨rest, ⟨spelling, rfl, rfl⟩, rfl⟩
        exact ⟨literal, rest, rfl, rfl, hne, rfl⟩
      · rintro ⟨before, after, rfl, rfl, -, rfl⟩
        exact ⟨after, ⟨before, rfl, rfl⟩, rfl⟩
  | cons word list =>
    rw [matchLiteral_of_words hwords]
    exact leadingWordsLength?_eq_some_iff (Text.words_eq_cons_iff.mp hwords).1

/-- A text begins with one spelling of a literal at most. -/
theorem SpellsLiteral.eq_of_append_eq {before before' after after' : List Char}
    (h : SpellsLiteral caseSensitive literal before)
    (h' : SpellsLiteral caseSensitive literal before') (heq : before ++ after = before' ++ after') :
    before = before' := by
  have hfound := matchLiteral_eq_some_iff.mpr ⟨before, after, rfl, rfl, h⟩
  have hfound' := matchLiteral_eq_some_iff.mpr ⟨before', after', rfl, rfl, h'⟩
  rw [heq, hfound'] at hfound
  exact (List.append_inj heq (Option.some.inj hfound).symm).1

end Lexeme
end Compositing
