import Compositing.Proofs.Language.Indexing
import Compositing.Proofs.Text.Words

/-! # Keywords that are spelled alike

    Whether a keyword is taken is decided by its text, and how it is spelled by
    its words.  So two registered keywords can be spelled by one text exactly if
    they have the same words and differ only in the white space around and
    between them.  Where the words of every keyword have one space between any
    two and nothing around them, the spelling of a keyword tells which it is. -/

namespace Compositing

/-! ## Texts that spell two literals -/

namespace Text
variable {caseSensitive : Bool} {text : List Char} {list other : List (List Char)}

theorem Spells.symm {word spelling : List Char} (h : Spells caseSensitive word spelling) :
    Spells caseSensitive spelling word := by
  rw [spells_iff] at h ⊢
  cases caseSensitive with
  | true => exact Eq.symm h
  | false => exact Eq.symm h

theorem Spells.trans {first second third : List Char} (h : Spells caseSensitive first second)
    (h' : Spells caseSensitive second third) : Spells caseSensitive first third := by
  rw [spells_iff] at h h' ⊢
  cases caseSensitive with
  | true => exact Eq.trans h h'
  | false => exact Eq.trans h h'

/-- Words that are the same, letter by letter up to case where case does not count. -/
def SameWords (caseSensitive : Bool) (list other : List (List Char)) : Prop :=
  List.Forall₂ (Spells caseSensitive) list other

theorem SameWords.refl (caseSensitive : Bool) (list : List (List Char)) :
    SameWords caseSensitive list list :=
  List.forall₂_same.mpr fun word _ => .refl caseSensitive word

/-- Words that one text has are the same. -/
theorem SameWords.of_common {third : List (List Char)} (h : SameWords caseSensitive list third)
    (h' : SameWords caseSensitive other third) : SameWords caseSensitive list other := by
  induction h generalizing other with
  | nil =>
    cases h'
    exact .nil
  | cons hspells _ ih =>
    cases h' with
    | cons hspells' hrest => exact .cons (hspells.trans hspells'.symm) (ih hrest)

/-- What words are written in spells those that are the same. -/
theorem SpelledApart.of_sameWords (h : SpelledApart true list text)
    (hsame : SameWords caseSensitive other list) : SpelledApart caseSensitive other text := by
  induction h generalizing other with
  | last hspells =>
    rw [spells_iff, if_pos rfl] at hspells
    subst hspells
    cases hsame with
    | cons hspells hnil =>
      cases hnil
      exact .last hspells
  | more hspells hgap _ ih =>
    rw [spells_iff, if_pos rfl] at hspells
    subst hspells
    cases hsame with
    | cons hspells hrest => exact .more hspells hgap (ih hrest)

/-- What spells words has the same words. -/
theorem SpelledApart.sameWords (h : SpelledApart caseSensitive list text)
    (hlist : ∀ word ∈ list, IsRun word) : SameWords caseSensitive list (words text) := by
  have hwords := h.words_append hlist (rfl : isAllBlank [] = true)
  rwa [List.append_nil] at hwords

/-- The words have one space between any two, and nothing is around them. -/
def IsTidy (text : List Char) : Prop := [' '].intercalate (words text) = text

theorem foldCase_intercalate (list : List (List Char)) :
    foldCase ([' '].intercalate list) = [' '].intercalate (list.map foldCase) := by
  induction list with
  | nil => rfl
  | cons word list ih =>
    cases list with
    | nil => simp [List.intercalate, foldCase]
    | cons next list =>
      have hcons : ∀ word next : List Char, ∀ list : List (List Char),
          [' '].intercalate (word :: next :: list) =
            word ++ ' ' :: [' '].intercalate (next :: list) := by
        intro word next list
        simp [List.intercalate]
      have happend : ∀ a b : List Char, foldCase (a ++ b) = foldCase a ++ foldCase b := fun a b =>
        List.map_append
      rw [hcons, happend, List.map_cons, List.map_cons, hcons, ← List.map_cons, ← ih]
      rfl

/-- The same words in a tidy text make the same text, up to case where case does not count. -/
theorem IsTidy.spells {a b : List Char} (ha : IsTidy a) (hb : IsTidy b)
    (h : SameWords caseSensitive (words a) (words b)) : Spells caseSensitive a b := by
  rw [spells_iff]
  cases caseSensitive with
  | true =>
    have hwords : words a = words b := forall₂_spells_true.mp h
    rw [if_pos rfl, ← ha, ← hb, hwords]
  | false =>
    have hspells : Spells false = fun word spelling => foldCase word = foldCase spelling := by
      funext word spelling
      simpa using @spells_iff false word spelling
    have hwords : (words a).map foldCase = (words b).map foldCase := by
      rw [← List.forall₂_eq_eq_eq, List.forall₂_map_left_iff, List.forall₂_map_right_iff]
      rwa [SameWords, hspells] at h
    rw [if_neg Bool.false_ne_true, ← ha, ← hb, foldCase_intercalate, foldCase_intercalate, hwords]

end Text

namespace Lexeme
variable {caseSensitive : Bool} {text a b : List Char}

/-- The literal is found in the text and takes all of it. -/
def Covers (caseSensitive : Bool) (literal text : List Char) : Prop :=
  matchLiteral caseSensitive literal text = some text.length

instance (caseSensitive : Bool) (literal text : List Char) :
    Decidable (Covers caseSensitive literal text) :=
  inferInstanceAs (Decidable (_ = _))

theorem covers_iff {literal : List Char} :
    Covers caseSensitive literal text ↔ SpellsLiteral caseSensitive literal text := by
  rw [Covers, matchLiteral_eq_some_iff]
  constructor
  · rintro ⟨before, after, rfl, hlength, hspells⟩
    have hafter : after = [] := by
      rw [List.length_append] at hlength
      exact List.eq_nil_of_length_eq_zero (by omega)
    rwa [hafter, List.append_nil]
  · intro hspells
    exact ⟨text, [], (List.append_nil text).symm, rfl, hspells⟩

/-- Some text spells two literals that are not blank exactly if they have the same words. -/
theorem exists_covers_iff (caseSensitive : Bool) (ha : Text.isAllBlank a = false)
    (hb : Text.isAllBlank b = false) :
    (∃ text, Covers caseSensitive a text ∧ Covers caseSensitive b text) ↔
      Text.SameWords caseSensitive (Text.words a) (Text.words b) := by
  have hwords : ∀ {literal : List Char}, Text.isAllBlank literal = false →
      ∀ text, Covers caseSensitive literal text ↔
        Text.SpelledApart caseSensitive (Text.words literal) text := by
    intro literal hblank text
    rw [covers_iff, SpellsLiteral]
    cases h : Text.words literal with
    | nil => exact absurd h (Text.words_ne_nil hblank)
    | cons word list => rfl
  simp only [hwords ha, hwords hb]
  constructor
  · rintro ⟨text, htexta, htextb⟩
    exact .of_common (htexta.sameWords fun _ => Text.isRun_of_mem_words)
      (htextb.sameWords fun _ => Text.isRun_of_mem_words)
  · intro hsame
    obtain ⟨word, list, hlist⟩ := List.exists_cons_of_ne_nil (Text.words_ne_nil hb)
    obtain ⟨before, middle, after, -, -, -, -, hmiddle⟩ := Text.exists_spelledApart hlist
    rw [← hlist] at hmiddle
    exact ⟨middle, hmiddle.of_sameWords hsame, hmiddle.of_sameWords (.refl caseSensitive _)⟩

end Lexeme

/-! ## Registered keywords -/

namespace Lexicon
variable {α : Type} {lexicon : Lexicon α} {a b : Lexeme α}

/-- Keywords of different ids have different texts, up to case where case does not count. -/
theorem IsConsistent.not_spells (h : lexicon.IsConsistent) (ha : a ∈ lexicon.entries)
    (hb : b ∈ lexicon.entries) (hne : a ≠ b) :
    ¬ Text.Spells lexicon.caseSensitive a.text.toList b.text.toList := by
  intro hspells
  have hkey : lexicon.key a.text = lexicon.key b.text := key_eq_iff.mpr hspells
  have hentry := h.lookup_of_mem ha
  rw [lookup, hkey] at hentry
  exact hne (Option.some.inj (hentry.symm.trans (h.lookup_of_mem hb)))

/-- Two keywords with the same words, one with two spaces between them. -/
def renderTargets : Lexicon Unit :=
  ⟨false, [⟨"render target", 1, none, true⟩, ⟨"render  target", 2, none, true⟩]⟩

theorem registered_renderTargets : renderTargets.Registered := by
  have hfirst : (empty false : Lexicon Unit).register "render target" 1 none =
      .ok ⟨false, [⟨"render target", 1, none, true⟩]⟩ := by rfl
  have hsecond : (⟨false, [⟨"render target", 1, none, true⟩]⟩ : Lexicon Unit).register
      "render  target" 2 none = .ok renderTargets := by rfl
  exact .register (.register (.empty false) hfirst) hsecond

/-- Registered keywords can be spelled alike. -/
theorem not_forall_spelled_apart :
    ¬ ∀ lexicon : Lexicon Unit, lexicon.Registered → ∀ a ∈ lexicon.entries,
      ∀ b ∈ lexicon.entries, a ≠ b →
        ¬ ∃ text, Lexeme.Covers lexicon.caseSensitive a.text.toList text ∧
          Lexeme.Covers lexicon.caseSensitive b.text.toList text := by
  intro h
  refine h renderTargets registered_renderTargets ⟨"render target", 1, none, true⟩
    (by simp [renderTargets]) ⟨"render  target", 2, none, true⟩ (by simp [renderTargets])
    (by simp) ⟨"render target".toList, ?_, ?_⟩
  · decide
  · decide

/-- Two registered keywords are both spelled by some text exactly if they have the same words,
    letter by letter up to case where case does not count.  They then differ in the white space
    around or between the words: keywords that have one space between any two words and nothing
    around them are never spelled by the same text. -/
theorem spelled_alike_iff (hlexicon : lexicon.Registered) (ha : a ∈ lexicon.entries)
    (hb : b ∈ lexicon.entries) (hne : a ≠ b) :
    ((∃ text, Lexeme.Covers lexicon.caseSensitive a.text.toList text ∧
        Lexeme.Covers lexicon.caseSensitive b.text.toList text) ↔
      Text.SameWords lexicon.caseSensitive (Text.words a.text.toList)
        (Text.words b.text.toList)) ∧
    (Text.IsTidy a.text.toList → Text.IsTidy b.text.toList →
      ¬ ∃ text, Lexeme.Covers lexicon.caseSensitive a.text.toList text ∧
        Lexeme.Covers lexicon.caseSensitive b.text.toList text) := by
  have hconsistent := hlexicon.isConsistent
  have hiff := Lexeme.exists_covers_iff lexicon.caseSensitive (hconsistent.spelled a ha)
    (hconsistent.spelled b hb)
  refine ⟨hiff, ?_⟩
  intro hatidy hbtidy hcommon
  exact hconsistent.not_spells ha hb hne (hatidy.spells hbtidy (hiff.mp hcommon))

/-- The two keywords with the same words are spelled alike, so they are not both tidy. -/
theorem spelled_alike_iff_renderTargets :
    (∃ text, Lexeme.Covers false "render target".toList text ∧
      Lexeme.Covers false "render  target".toList text) ∧
    ¬ (Text.IsTidy "render target".toList ∧ Text.IsTidy "render  target".toList) := by
  obtain ⟨hiff, htidy⟩ := spelled_alike_iff registered_renderTargets
    (a := ⟨"render target", 1, none, true⟩) (b := ⟨"render  target", 2, none, true⟩)
    (by simp [renderTargets]) (by simp [renderTargets]) (by simp)
  have hwords : Text.words "render target".toList = Text.words "render  target".toList := by
    decide
  have hsame : Text.SameWords false (Text.words "render target".toList)
      (Text.words "render  target".toList) := by
    rw [hwords]
    exact .refl false _
  have hcommon := hiff.mpr hsame
  exact ⟨hcommon, fun h => htidy h.1 h.2 hcommon⟩

end Lexicon
end Compositing
