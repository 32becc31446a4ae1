import Compositing.Proofs.Text.Bytes
import Compositing.Proofs.Text.Words

/-! # Literals found by offsets

    A literal can also be looked for in a text that is kept as bytes: an offset
    moves over the white space and the words, and each word is compared with as
    many bytes of the text as it has itself.  A slice of the text that begins
    where the last word or gap ended is always there; the one that a word is
    compared with need not be, and then the word is not there either.  So
    looking by offsets never fails, and it finds what is found by characters. -/

namespace Compositing.Lexeme
variable {caseSensitive : Bool} {text : List Char}

/-! ## Looking by offsets -/

/-- A slice was asked for that the text does not have: it ends before the offset, or the offset is
    inside a character. -/
structure BadSlice where
  offset : Nat

/-- How many bytes of white space are at an offset. -/
def gapAt (text : List Char) (offset : Nat) : Except BadSlice Nat :=
  match Text.cutAt? offset text with
  | some (_, rest) => .ok (Text.byteLength (rest.takeWhile Text.isBlank))
  | none => .error ⟨offset⟩

/-- Are the bytes at an offset those of the word? -/
def wordAt (caseSensitive : Bool) (text word : List Char) (offset : Nat) : Bool :=
  match Text.slice? offset (offset + Text.byteLength word) text with
  | some candidate => Text.sameBytes caseSensitive (Text.bytes word) (Text.bytes candidate)
  | none => false

/-- The offset behind the words, of which the first stands at `offset` and each other behind white
    space. -/
def wordsAt (caseSensitive : Bool) (text : List Char) (first : Bool) (offset : Nat) :
    (words : List (List Char)) → Except BadSlice (Option Nat)
  | [] => .ok (some offset)
  | word :: words => do
    let gap ← if first then pure 0 else gapAt text offset
    if !first && gap == 0 then
      return none
    if wordAt caseSensitive text word (offset + gap) then
      wordsAt caseSensitive text false (offset + gap + Text.byteLength word) words
    else
      return none

/-- How many bytes of the text spell the literal. -/
def literalAt (caseSensitive : Bool) (literal text : List Char) : Except BadSlice (Option Nat) :=
  match Text.words literal with
  | [] =>
    if !literal.isEmpty && (Text.bytes literal).isPrefixOf (Text.bytes text) then
      .ok (some (Text.byteLength literal))
    else .ok none
  | word :: words => wordsAt caseSensitive text true 0 (word :: words)

/-- How many bytes of the text spell the literal, told by the characters. -/
def literalLength? (caseSensitive : Bool) (literal text : List Char) : Option Nat :=
  (matchLiteral caseSensitive literal text).map fun n => Text.byteLength (text.take n)

/-! ## Both find the same -/

/-- Behind a part of the text its white space is there to be counted. -/
theorem gapAt_append (passed rest : List Char) :
    gapAt (passed ++ rest) (Text.byteLength passed) =
      .ok (Text.byteLength (rest.takeWhile Text.isBlank)) := by
  rw [gapAt, Text.cutAt?_append]

/-- The bytes behind a part of the text are those of a word where a spelling of it stands. -/
theorem wordAt_append {passed rest word : List Char} :
    wordAt caseSensitive (passed ++ rest) word (Text.byteLength passed) = true ↔
      ∃ spelling after, rest = spelling ++ after ∧ Text.Spells caseSensitive word spelling := by
  rw [wordAt, Text.slice?_append]
  constructor
  · intro h
    cases hcut : Text.cutAt? (Text.byteLength word) rest with
    | none =>
      rw [hcut] at h
      cases h
    | some cut =>
      rw [hcut] at h
      exact ⟨cut.1, cut.2, (Text.cutAt?_eq_some_iff.mp hcut).1, Text.sameBytes_iff.mp h⟩
  · rintro ⟨spelling, after, rfl, hspells⟩
    rw [← hspells.byteLength_eq, Text.cutAt?_append]
    exact Text.sameBytes_iff.mpr hspells

/-- The first word needs no white space in front. -/
theorem wordsAt_true_cons (word : List Char) (words : List (List Char)) (offset : Nat) :
    wordsAt caseSensitive text true offset (word :: words) =
      if wordAt caseSensitive text word offset then
        wordsAt caseSensitive text false (offset + Text.byteLength word) words
      else .ok none := rfl

/-- Another word is looked for as the first one is, behind the white space. -/
theorem wordsAt_false_cons (word : List Char) (words : List (List Char)) (passed rest : List Char) :
    wordsAt caseSensitive (passed ++ rest) false (Text.byteLength passed) (word :: words) =
      if rest.takeWhile Text.isBlank = [] then .ok none
      else
        wordsAt caseSensitive
          (passed ++ rest.takeWhile Text.isBlank ++ rest.dropWhile Text.isBlank) true
          (Text.byteLength (passed ++ rest.takeWhile Text.isBlank)) (word :: words) := by
  have hstep : wordsAt caseSensitive (passed ++ rest) false (Text.byteLength passed)
      (word :: words) =
        (gapAt (passed ++ rest) (Text.byteLength passed)).bind fun gap =>
          if gap == 0 then .ok none
          else
            wordsAt caseSensitive (passed ++ rest) true (Text.byteLength passed + gap)
              (word :: words) := rfl
  rw [hstep, gapAt_append, Except.bind, List.append_assoc, List.takeWhile_append_dropWhile,
    Text.byteLength_append]
  simp only [beq_iff_eq, Text.byteLength_eq_zero_iff]

/-- If the words behind a word are found by offsets as they are by characters, so is it with
    them. -/
theorem wordsAt_true_of_false {words : List (List Char)}
    (h : ∀ passed rest, wordsAt caseSensitive (passed ++ rest) false (Text.byteLength passed) words =
      .ok ((spacedWordsLength? caseSensitive words rest).map fun n =>
        Text.byteLength (passed ++ rest.take n)))
    (word passed rest : List Char) :
    wordsAt caseSensitive (passed ++ rest) true (Text.byteLength passed) (word :: words) =
      .ok ((leadingWordsLength? caseSensitive word words rest).map fun n =>
        Text.byteLength (passed ++ rest.take n)) := by
  rw [wordsAt_true_cons, leadingWordsLength?]
  cases hword : afterWord? caseSensitive word rest with
  | none =>
    have hnot : ¬ wordAt caseSensitive (passed ++ rest) word (Text.byteLength passed) = true := by
      rw [wordAt_append]
      rintro ⟨spelling, after, rfl, hspells⟩
      rw [afterWord?_append hspells] at hword
      cases hword
    rw [if_neg hnot]
    rfl
  | some after =>
    obtain ⟨spelling, rfl, hspells⟩ := spells_of_afterWord? hword
    have hbytes : Text.byteLength passed + Text.byteLength word =
        Text.byteLength (passed ++ spelling) := by
      rw [Text.byteLength_append, hspells.byteLength_eq]
    have htake : ∀ n, (spelling ++ after).take (word.length + n) = spelling ++ after.take n := by
      intro n
      rw [← hspells.length_eq, List.take_length_add_append]
    rw [if_pos (wordAt_append.mpr ⟨spelling, after, rfl, hspells⟩), hbytes, ← List.append_assoc, h]
    simp only [Option.bind_some, Option.map_map, Function.comp_def, htake, List.append_assoc]

/-- Words with white space before each are found by offsets as they are found by characters. -/
theorem wordsAt_false (words : List (List Char)) (passed rest : List Char) :
    wordsAt caseSensitive (passed ++ rest) false (Text.byteLength passed) words =
      .ok ((spacedWordsLength? caseSensitive words rest).map fun n =>
        Text.byteLength (passed ++ rest.take n)) := by
  induction words generalizing passed rest with
  | nil => simp [wordsAt, spacedWordsLength?]
  | cons word words ih =>
    rw [wordsAt_false_cons, spacedWordsLength?_cons]
    split
    · rfl
    · -- what is taken behind the gap and the gap are taken together
      have htake : ∀ n, rest.takeWhile Text.isBlank ++ (rest.dropWhile Text.isBlank).take n =
          rest.take ((rest.takeWhile Text.isBlank).length + n) := by
        intro n
        rw [← List.take_length_add_append, List.takeWhile_append_dropWhile]
      rw [wordsAt_true_of_false ih]
      simp only [Option.map_map, Function.comp_def, List.append_assoc, htake]

/-- A literal is found by offsets as it is found by characters: no slice is missing. -/
theorem literalAt_eq (caseSensitive : Bool) (literal text : List Char) :
    literalAt caseSensitive literal text = .ok (literalLength? caseSensitive literal text) := by
  unfold literalAt literalLength?
  cases hwords : Text.words literal with
  | nil =>
    simp only [Bool.and_eq_true, Bool.not_eq_true', List.isEmpty_eq_false_iff,
      List.isPrefixOf_iff_prefix, Text.bytes_isPrefix_iff]
    by_cases hne : literal = []
    · simp [hne, matchLiteral, Text.words, Text.words.go]
    rw [matchLiteral_of_no_words hwords hne, Option.map_map]
    by_cases hprefix : literal <+: text
    · obtain ⟨rest, rfl⟩ := hprefix
      rw [if_pos ⟨hne, List.prefix_append _ _⟩, afterWord?_append (.refl true literal)]
      simp
    · rw [if_neg fun h => hprefix h.2]
      cases hafter : afterWord? true literal text with
      | none => rfl
      | some rest =>
        obtain ⟨spelling, rfl, hspells⟩ := spells_of_afterWord? hafter
        rw [Text.spells_iff, if_pos rfl] at hspells
        exact absurd ⟨rest, by rw [hspells]⟩ hprefix
  | cons word words =>
    rw [matchLiteral_of_words hwords]
    exact wordsAt_true_of_false (wordsAt_false words) word [] text

/-! ## What is found -/

/-- As many bytes are found as a spelling of the literal at the front of the text has. -/
theorem literalLength?_eq_some_iff {literal : List Char} {n : Nat} :
    literalLength? caseSensitive literal text = some n ↔
      ∃ before after, text = before ++ after ∧ Text.byteLength before = n ∧
        SpellsLiteral caseSensitive literal before := by
  simp only [literalLength?, Option.map_eq_some_iff, matchLiteral_eq_some_iff]
  constructor
  · rintro ⟨length, ⟨before, after, rfl, rfl, hspells⟩, rfl⟩
    exact ⟨before, after, rfl, by rw [List.take_left], hspells⟩
  · rintro ⟨before, after, rfl, rfl, hspells⟩
    exact ⟨before.length, ⟨before, after, rfl, rfl, hspells⟩, by rw [List.take_left]⟩

/-- A literal is found exactly where the text begins with a spelling of it: its words, letter by
    letter up to case where case does not count, with white space between any two; without words
    it has to stand there itself.  Its words are its runs without white space, whatever stands
    around them.  There is one such spelling at most, the offset behind it is where a character
    ends, and what follows it makes no difference.  No slice is missing on the way. -/
theorem literal_found_exactly (caseSensitive : Bool) (literal text : List Char) :
    literalAt caseSensitive literal text = .ok (literalLength? caseSensitive literal text) ∧
    (∀ n, literalLength? caseSensitive literal text = some n ↔
      ∃ before after, text = before ++ after ∧ Text.byteLength before = n ∧
        SpellsLiteral caseSensitive literal before) ∧
    (∀ word words, Text.words literal = word :: words ↔
      (∀ run ∈ word :: words, Text.IsRun run) ∧ ∃ before middle after,
        literal = before ++ (middle ++ after) ∧ Text.isAllBlank before = true ∧
          Text.isAllBlank after = true ∧ Text.SpelledApart true (word :: words) middle) ∧
    (∀ word words, Text.words literal = word :: words → ∀ spelling,
      SpellsLiteral caseSensitive literal spelling ↔
        Text.SpelledApart caseSensitive (word :: words) spelling) ∧
    (Text.words literal = [] → ∀ spelling,
      SpellsLiteral caseSensitive literal spelling ↔ literal ≠ [] ∧ spelling = literal) ∧
    (∀ before before' after after', text = before ++ after → text = before' ++ after' →
      SpellsLiteral caseSensitive literal before → SpellsLiteral caseSensitive literal before' →
        before = before') ∧
    (∀ n, literalLength? caseSensitive literal text = some n →
      ∀ more, literalLength? caseSensitive literal (text ++ more) = some n) := by
  refine ⟨literalAt_eq caseSensitive literal text, fun n => literalLength?_eq_some_iff,
    fun word words => Text.words_eq_cons_iff, ?_, ?_, ?_, ?_⟩
  · intro word words hwords spelling
    rw [SpellsLiteral, hwords]
  · intro hwords spelling
    rw [SpellsLiteral, hwords]
  · rintro before before' after after' rfl htext hspells hspells'
    exact hspells.eq_of_append_eq hspells' htext
  · intro n hfound more
    obtain ⟨before, after, rfl, hbytes, hspells⟩ := literalLength?_eq_some_iff.mp hfound
    exact literalLength?_eq_some_iff.mpr ⟨before, after ++ more, by simp, hbytes, hspells⟩

/-- Two words with letters that take two bytes are found with wide white space between them. -/
theorem literal_found_exactly_wide :
    literalAt false " g\u00fcn  t\u00e4n".toList "G\u00fcN\u2003T\u00e4n x".toList = .ok (some 11) ∧
      literalAt false " g\u00fcn  t\u00e4n".toList "G\u00dcN\u2003T\u00e4n x".toList = .ok none ∧
      literalLength? false " g\u00fcn  t\u00e4n".toList
        ("G\u00fcN\u2003T\u00e4n x".toList ++ "yz".toList) = some 11 := by
  have hfound : literalLength? false " g\u00fcn  t\u00e4n".toList "G\u00fcN\u2003T\u00e4n x".toList =
      some 11 := by decide
  have hmissed : literalLength? false " g\u00fcn  t\u00e4n".toList "G\u00dcN\u2003T\u00e4n x".toList =
      none := by decide
  obtain ⟨hsame, -, -, -, -, -, hmore⟩ :=
    literal_found_exactly false " g\u00fcn  t\u00e4n".toList "G\u00fcN\u2003T\u00e4n x".toList
  refine ⟨hsame.trans (by rw [hfound]), ?_, hmore 11 hfound "yz".toList⟩
  rw [(literal_found_exactly false " g\u00fcn  t\u00e4n".toList "G\u00dcN\u2003T\u00e4n x".toList).1,
    hmissed]

end Compositing.Lexeme
