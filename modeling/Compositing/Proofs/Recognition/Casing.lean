import Compositing.Proofs.Recognition.Changing
import Compositing.Proofs.Recognition.Lines
import Compositing.Proofs.Recognition.Resync
import Compositing.Proofs.Text.Casing
import Compositing.Script.Production
import Mathlib.Data.List.Forall2

/-! # Matching without regard to case

    Where case does not count, a text and the text without capitals are matched
    alike.  Keywords are compared letter by letter without regard to case, an
    exponent may begin with either letter, and what ends labels, runs, strings,
    comments and blocks is no letter.  Only a grammar with a letter in a class
    of characters could tell the two apart.

    So both are cut into the same statements and mismatches, at the same
    offsets and lines, with the same tokens except for the case of labels.  Two
    texts that are the same up to case are the same without capitals, and the
    grammar of compositor scripts has no letter in a class. -/

namespace Compositing

/-! ## Skipping -/

namespace Resync
open Text

@[simp] theorem opensBlock_foldCase (text : List Char) :
    opensBlock (foldCase text) = opensBlock text := by
  rw [opensBlock, trimStart_foldCase, head?_foldCase_beq (by decide), opensBlock]

/-- Skipping passes a letter, wherever it stands. -/
theorem lengthFrom_letter {c : Char} (hc : c.isAlpha = true) (mode : Mode) (depth taken : Nat)
    (rest : List Char) :
    lengthFrom mode depth taken (c :: rest) = lengthFrom mode depth (taken + 1) rest := by
  have hne : ∀ d : Char, d.isAlpha = false → c ≠ d := by
    rintro d hd rfl
    rw [hc] at hd
    cases hd
  have hquote := hne '"' (by decide)
  have hline := hne '\n' (by decide)
  cases mode with
  | code opening =>
    refine lengthFrom_other hquote (hne '{' (by decide)) (hne '}' (by decide)) hline ?_
    intro hslashes
    exact hne '/' (by decide) (List.cons_prefix_cons.mp hslashes).1.symm
  | quoted | comment => simp [lengthFrom, hquote, hline]

/-- So it ends at the same place in a text without capitals. -/
theorem lengthFrom_foldCase (mode : Mode) (depth taken : Nat) (text : List Char) :
    lengthFrom mode depth taken (foldCase text) = lengthFrom mode depth taken text := by
  induction text generalizing mode depth taken with
  | nil => rfl
  | cons c rest ih =>
    show lengthFrom mode depth taken (c.toLower :: foldCase rest) = _
    -- a letter that changes is passed, and any other character is the same in both texts
    by_cases hsame : c.toLower = c
    · have hslash : (foldCase rest).head? = some '/' ↔ rest.head? = some '/' :=
        head?_foldCase_eq (by decide) rest
      rw [hsame]
      simp only [lengthFrom, ih, opensBlock_foldCase, hslash]
    · obtain ⟨hc, hlower⟩ := isAlpha_of_toLower_ne hsame
      rw [lengthFrom_letter hlower, lengthFrom_letter hc, ih]

theorem length_foldCase (text : List Char) : length (foldCase text) = length text :=
  lengthFrom_foldCase _ _ _ text

end Resync

/-! ## Leaves -/

namespace Lexeme
open Text

theorem afterWord?_of_foldCase (word text : List Char) :
    afterWord? false word (foldCase text) = (afterWord? false word text).map foldCase := by
  induction word generalizing text with
  | nil => rfl
  | cons w word ih =>
    cases text with
    | nil => rfl
    | cons c text =>
      have hletter : sameLetter false w c.toLower = sameLetter false w c := by
        simp only [sameLetter, Bool.false_eq_true, if_false, toLower_toLower]
      show afterWord? false (w :: word) (c.toLower :: foldCase text) = _
      rw [afterWord?, afterWord?, hletter, ih]
      split <;> rfl

/-- A word without letters is compared exactly, and no letter stands for another character. -/
theorem afterWord?_exact_foldCase {word : List Char} (hword : ∀ w ∈ word, w.isAlpha = false)
    (text : List Char) :
    afterWord? true word (foldCase text) = (afterWord? true word text).map foldCase := by
  induction word generalizing text with
  | nil => rfl
  | cons w word ih =>
    obtain ⟨hw, hword⟩ := List.forall_mem_cons.mp hword
    cases text with
    | nil => rfl
    | cons c text =>
      have hletter : sameLetter true w c.toLower = sameLetter true w c := by
        rw [Bool.eq_iff_iff, sameLetter, if_pos rfl, sameLetter, if_pos rfl, beq_iff_eq,
          beq_iff_eq, eq_comm, toLower_eq_iff hw, eq_comm]
      show afterWord? true (w :: word) (c.toLower :: foldCase text) = _
      rw [afterWord?, afterWord?, hletter, ih hword]
      split <;> rfl

theorem spacedWordsLength?_of_foldCase (words : List (List Char)) (text : List Char) :
    spacedWordsLength? false words (foldCase text) = spacedWordsLength? false words text := by
  induction words generalizing text with
  | nil => rfl
  | cons word words ih =>
    rw [spacedWordsLength?, spacedWordsLength?, takeWhile_foldCase ignoresCase_isBlank,
      Text.length_foldCase]
    cases (text.takeWhile isBlank).length with
    | zero => rfl
    | succ gap =>
      simp only [drop_foldCase, afterWord?_of_foldCase]
      cases afterWord? false word (text.drop (gap + 1)) with
      | none => rfl
      | some rest => simp only [Option.map_some, ih]

/-- A literal is found in a text without capitals where it is found in the text. -/
theorem matchLiteral_of_foldCase (literal text : List Char) :
    matchLiteral false literal (foldCase text) = matchLiteral false literal text := by
  unfold matchLiteral
  cases hwords : words literal with
  | nil =>
    -- a literal without words is white space
    have hblank : ∀ w ∈ literal, w.isAlpha = false := fun w hw =>
      isAlpha_of_isBlank (List.all_eq_true.mp (ne_nil_of_words_go hwords).2 w hw)
    simp only [afterWord?_exact_foldCase hblank, Option.map_map]
    rfl
  | cons word words =>
    simp only [afterWord?_of_foldCase]
    cases afterWord? false word text with
    | none => rfl
    | some rest => simp only [Option.map_some, spacedWordsLength?_of_foldCase]

end Lexeme

namespace Scan
open Text

/-- The text without capitals. -/
def foldedValue (result : Nat × String) : Nat × String :=
  (result.1, String.ofList (foldCase result.2.toList))

theorem number_foldCase (text : List Char) : number (foldCase text) = number text := by
  unfold number
  rw [Number.scan_foldCase]
  cases Number.scan text with
  | none => rfl
  | some length => simp only [take_foldCase, Number.read?_foldCase]

theorem ignoresCase_isInner : IgnoresCase isInner :=
  (ignoresCase_beq (d := '"') (by decide)).not.and (ignoresCase_beq (d := '\n') (by decide)).not

theorem ignoresCase_isBare : IgnoresCase isBare := by
  intro c
  have hbrace : (c.toLower != '{') = (c != '{') := (ignoresCase_beq (by decide)).not c
  have hclose : (c.toLower != '}') = (c != '}') := (ignoresCase_beq (by decide)).not c
  have hquote : (c.toLower != '"') = (c != '"') := (ignoresCase_beq (by decide)).not c
  rw [isBare, isBare, isBlank_toLower, hbrace, hclose, hquote]

/-- What bounds a label is no letter. -/
theorem label_foldCase (text : List Char) :
    label (foldCase text) = (label text).map foldedValue := by
  by_cases hquote : text.head? = some '"'
  · -- between quotes, if the text without capitals is closed where the text is
    obtain ⟨body, rfl⟩ := List.head?_eq_some_iff.mp hquote
    have hclosed : ∀ n, (((foldCase body).drop n).head? == some '"') =
        ((body.drop n).head? == some '"') := by
      intro n
      rw [drop_foldCase, head?_foldCase_beq (by decide)]
    show label ('"' :: foldCase body) = _
    rw [label_quote, label_quote, takeWhile_foldCase ignoresCase_isInner, isEmpty_foldCase,
      length_foldCase, hclosed]
    split
    · simp [foldedValue]
    · rfl
  · have hquote' : (foldCase text).head? ≠ some '"' := by
      rwa [ne_eq, head?_foldCase_eq (by decide)]
    rw [label_of_head hquote, label_of_head hquote', takeWhile_foldCase ignoresCase_isBare,
      isEmpty_foldCase, length_foldCase]
    split
    · rfl
    · simp [foldedValue]

theorem runLength_foldCase {chars : List Char} (h : ∀ d ∈ chars, d.isAlpha = false)
    (negated : Bool) (text : List Char) :
    runLength chars negated (foldCase text) = runLength chars negated text := by
  have hgo : ∀ taken, runLength.go chars negated taken (foldCase text) =
      runLength.go chars negated taken text := by
    induction text with
    | nil => exact fun _ => rfl
    | cons c rest ih =>
      -- the run ends at a character of the class or at two slashes, and neither is a letter
      intro taken
      have hslash : (c.toLower == '/') = (c == '/') := ignoresCase_beq (by decide) c
      have hnext : ((foldCase rest).head? == some '/') = (rest.head? == some '/') :=
        head?_foldCase_beq (by decide) rest
      show runLength.go chars negated taken (c.toLower :: foldCase rest) = _
      rw [runLength.go, runLength.go, ignoresCase_contains h c, hslash, hnext, ih]
  exact hgo 0

theorem run_foldCase {chars : List Char} (h : ∀ d ∈ chars, d.isAlpha = false)
    (negated : Bool) (text : List Char) :
    run chars negated (foldCase text) = (run chars negated text).map foldedValue := by
  unfold run
  simp only [runLength_foldCase h, take_foldCase, trimEnd_foldCase, isEmpty_foldCase]
  split
  · rfl
  · simp [foldedValue]

end Scan

/-! ## What is matched -/

/-- The value with the label without capitals. -/
def Token.Kind.folded : Token.Kind → Token.Kind
  | .label text => .label (String.ofList (Text.foldCase text.toList))
  | kind => kind

/-- The token with its label without capitals. -/
def Token.folded (t : Token) : Token := { t with kind := t.kind.folded }

/-- The statement with its labels without capitals. -/
def Statement.folded (s : Statement) : Statement := { s with tokens := s.tokens.map Token.folded }

/-- The mismatch with its word without capitals. -/
def Mismatch.folded (m : Mismatch) : Mismatch :=
  { m with nearby := m.nearby.map fun word => String.ofList (Text.foldCase word.toList) }

/-- The event without capitals. -/
def Event.folded : Event → Event
  | .statement s => .statement s.folded
  | .mismatch m => .mismatch m.folded

theorem Mismatch.nearbyWord?_foldCase (text : List Char) :
    nearbyWord? (Text.foldCase text) =
      (nearbyWord? text).map fun word => String.ofList (Text.foldCase word.toList) := by
  unfold nearbyWord?
  rw [Text.firstWord?_foldCase, Option.map_map, Option.map_map]
  congr 1
  funext word
  simp

/-! ## Matching -/

/-- An element that has no class with a letter in it. -/
def Element.ignoresCase : Element → Bool
  | .run chars _ => chars.toList.all fun c => !c.isAlpha
  | _ => true

namespace Recognition

/-- Leaving out the capitals of a text. -/
def folding : Change := ⟨Text.foldCase, Token.Kind.folded, id, id⟩

@[simp] theorem folding_place (p : Position) : folding.place p = p.folded := rfl

@[simp] theorem folding_offset (offset : Nat) : folding.offset offset = offset := rfl

theorem folding_isFaithful : folding.IsFaithful where
  length := Text.length_foldCase
  offset _ _ := Iff.rfl
  max _ _ := rfl
  advance := Position.folded_advance
  skipTrivia := Position.folded_skipTrivia

/-- A leaf scans a text without capitals as it scans the text. -/
theorem folding_keepsLeaves {elements : List Element}
    (h : elements.all Element.ignoresCase = true) : folding.KeepsLeaves false elements := by
  intro e he scan hscanner text
  have hcase := List.all_eq_true.mp h e he
  cases e with
  | terminal literal emits token =>
    cases hscanner
    show (Lexeme.matchLiteral false literal.toList (Text.foldCase text)).map _ = _
    rw [Lexeme.matchLiteral_of_foldCase, Option.map_map]
    congr 1
    funext n
    cases emits <;> cases token <;> rfl
  | number name =>
    cases hscanner
    show (Scan.number (Text.foldCase text)).map _ = _
    rw [Scan.number_foldCase, Option.map_map]
    rfl
  | label name =>
    cases hscanner
    show (Scan.label (Text.foldCase text)).map _ = _
    rw [Scan.label_foldCase, Option.map_map, Option.map_map]
    rfl
  | run chars negated =>
    cases hscanner
    have hletters : ∀ d ∈ chars.toList, d.isAlpha = false := by
      simpa [Element.ignoresCase] using hcase
    show (Scan.run chars.toList negated (Text.foldCase text)).map _ = _
    rw [Scan.run_foldCase hletters, Option.map_map, Option.map_map]
    rfl
  | rule | repeated | optional | notAhead | choice => cases hscanner

end Recognition

/-! ## Events -/

namespace Event

/-- The next event of a text without capitals, if a statement is matched there as in the text. -/
theorem next?_folded {recognize : Position → Recognition}
    (h : ∀ p : Position, recognize p.folded = Recognition.folding.recognition (recognize p))
    (p : Position) :
    next? recognize p.folded = (next? recognize p).map fun (event, q) =>
      (event.folded, q.folded) := by
  have hend : p.skipTrivia.folded.atEnd = p.skipTrivia.atEnd := Text.isEmpty_foldCase _
  unfold next?
  simp only [Position.folded_skipTrivia, hend, h, Recognition.Change.recognition_matched,
    Recognition.Change.recognition_position, Recognition.Change.recognition_furthest,
    Recognition.folding_place, Recognition.folding_offset, Position.folded_offset]
  split
  · rfl
  · split
    · rfl
    · -- a mismatch has a word of the text in it, and where it ends depends on the text
      rw [Position.folded_forwardTo, Position.folded_rest, Position.folded_advance,
        Position.folded_rest, Mismatch.nearbyWord?_foldCase, Resync.length_foldCase]
      rfl

theorem all_folded {recognize : Position → Recognition}
    (h : ∀ p : Position, recognize p.folded = Recognition.folding.recognition (recognize p))
    (fuel : Nat) (p : Position) :
    all recognize fuel p.folded = (all recognize fuel p).map folded := by
  induction fuel generalizing p with
  | zero => rfl
  | succ fuel ih =>
    unfold all
    rw [next?_folded h]
    cases next? recognize p with
    | none => rfl
    | some result => exact congrArg (result.1.folded :: ·) (ih result.2)

end Event

/-- A text without capitals has the events of the text, without capitals, if no class of the
    grammar has a letter in it. -/
theorem Grammar.events_foldCase {g : Grammar} (h : g.leaves.all Element.ignoresCase = true)
    (text : List Char) :
    g.events false (Text.foldCase text) = (g.events false text).map Event.folded := by
  have hleaves := Recognition.folding_keepsLeaves h
  -- there is room for as many events, and each is found alike
  unfold events
  rw [Text.length_foldCase]
  refine Event.all_folded (fun p => ?_) text.length (.start text)
  exact Recognition.recognize_kept Recognition.folding_isFaithful hleaves
    (fun e he => hleaves e (leaves_of_statement he)) p p.offset

/-! ## Up to case -/

/-- The values are the same, or labels that are the same up to case. -/
inductive Token.Kind.SameUpToCase : Token.Kind → Token.Kind → Prop where
  | keyword (id : Nat) : SameUpToCase (.keyword id) (.keyword id)
  | number (value : Number) : SameUpToCase (.number value) (.number value)
  | label {a b : String} (hletters : Text.Spells false a.toList b.toList) :
    SameUpToCase (.label a) (.label b)

/-- The tokens are the same up to the case of a label. -/
structure Token.SameUpToCase (s t : Token) : Prop where
  kind : s.kind.SameUpToCase t.kind
  id : s.id = t.id
  offset : s.offset = t.offset
  line : s.line = t.line

/-- The statements are the same up to the case of labels. -/
structure Statement.SameUpToCase (s t : Statement) : Prop where
  tokens : List.Forall₂ Token.SameUpToCase s.tokens t.tokens
  offset : s.offset = t.offset
  line : s.line = t.line

/-- The mismatches are the same up to the case of the word that stands there. -/
structure Mismatch.SameUpToCase (m n : Mismatch) : Prop where
  nearby : Option.Rel (fun a b => Text.Spells false a.toList b.toList) m.nearby n.nearby
  offset : m.offset = n.offset
  line : m.line = n.line

/-- The events are of the same kind, and the same up to case. -/
inductive Event.SameUpToCase : Event → Event → Prop where
  | statement {s t : Statement} (h : s.SameUpToCase t) : SameUpToCase (.statement s) (.statement t)
  | mismatch {m n : Mismatch} (h : m.SameUpToCase n) : SameUpToCase (.mismatch m) (.mismatch n)

/-- Texts that are the same without capitals are the same up to case. -/
theorem Text.spells_of_folded {a b : String}
    (h : String.ofList (foldCase a.toList) = String.ofList (foldCase b.toList)) :
    Spells false a.toList b.toList :=
  spells_iff.mpr (String.ofList_injective h)

theorem Token.Kind.sameUpToCase_of_folded {k l : Token.Kind} (h : k.folded = l.folded) :
    k.SameUpToCase l := by
  cases k with
  | keyword id =>
    cases l with
    | keyword => cases h; exact .keyword id
    | number | label => cases h
  | number value =>
    cases l with
    | number => cases h; exact .number value
    | keyword | label => cases h
  | label a =>
    cases l with
    | label b => exact .label (Text.spells_of_folded (Token.Kind.label.inj h))
    | keyword | number => cases h

theorem Token.sameUpToCase_of_folded {s t : Token} (h : s.folded = t.folded) :
    s.SameUpToCase t := by
  obtain ⟨kind, offset, line⟩ := s
  obtain ⟨kind', offset', line'⟩ := t
  obtain ⟨hkind, hoffset, hline⟩ := Token.mk.inj h
  have hsame : kind.SameUpToCase kind' := Token.Kind.sameUpToCase_of_folded hkind
  have hid : Token.id ⟨kind, offset, line⟩ = Token.id ⟨kind', offset', line'⟩ := by
    cases hsame <;> rfl
  exact ⟨hsame, hid, hoffset, hline⟩

/-- Lists that one function makes equal have members that it makes equal. -/
theorem forall₂_of_map_eq {α β : Type} {f : α → β} {R : α → α → Prop}
    (hR : ∀ a b, f a = f b → R a b) {as bs : List α} (h : as.map f = bs.map f) :
    List.Forall₂ R as bs := by
  have hequal : List.Forall₂ (· = ·) (as.map f) (bs.map f) := by
    rw [h]
    exact List.forall₂_refl _
  rw [List.forall₂_map_left_iff, List.forall₂_map_right_iff] at hequal
  exact hequal.imp hR

theorem Statement.sameUpToCase_of_folded {s t : Statement} (h : s.folded = t.folded) :
    s.SameUpToCase t := by
  obtain ⟨htokens, hoffset, hline⟩ := Statement.mk.inj h
  have htokens := forall₂_of_map_eq (fun _ _ => Token.sameUpToCase_of_folded) htokens
  exact ⟨htokens, hoffset, hline⟩

theorem Mismatch.sameUpToCase_of_folded {m n : Mismatch} (h : m.folded = n.folded) :
    m.SameUpToCase n := by
  obtain ⟨hoffset, hline, hnearby⟩ := Mismatch.mk.inj h
  refine ⟨?_, hoffset, hline⟩
  cases hm : m.nearby with
  | none =>
    cases hn : n.nearby with
    | none => exact .none
    | some word => simp [hm, hn] at hnearby
  | some word =>
    cases hn : n.nearby with
    | none => simp [hm, hn] at hnearby
    | some word' =>
      rw [hm, hn] at hnearby
      exact .some (Text.spells_of_folded (Option.some.inj hnearby))

theorem Event.sameUpToCase_of_folded {e f : Event} (h : e.folded = f.folded) :
    e.SameUpToCase f := by
  cases e with
  | statement s =>
    cases f with
    | statement t => exact .statement (Statement.sameUpToCase_of_folded (Event.statement.inj h))
    | mismatch n => cases h
  | mismatch m =>
    cases f with
    | statement t => cases h
    | mismatch n => exact .mismatch (Mismatch.sameUpToCase_of_folded (Event.mismatch.inj h))

/-- Texts that are the same up to case have events that are, if no class of the grammar has a
    letter in it. -/
theorem Grammar.sameUpToCase_events {g : Grammar} (h : g.leaves.all Element.ignoresCase = true)
    {a b : List Char} (hletters : Text.Spells false a b) :
    List.Forall₂ Event.SameUpToCase (g.events false a) (g.events false b) := by
  have hfold : Text.foldCase a = Text.foldCase b := Text.spells_iff.mp hletters
  -- without capitals both have the events of one text
  refine forall₂_of_map_eq (fun _ _ => Event.sameUpToCase_of_folded) ?_
  rw [← events_foldCase h, ← events_foldCase h, hfold]

/-! ## Compositor scripts -/

namespace Script

/-- No class of characters in the grammar of scripts has a letter in it. -/
theorem ignoresCase_grammar : grammar.leaves.all Element.ignoresCase = true := by
  rfl

/-- Where case does not count, scripts that are the same up to the case of letters have the same
    events up to the case of labels and of the words at mismatches: as many, of the same kinds, at
    the same offsets and lines, with tokens of the same ids, offsets, lines and numbers. -/
theorem events_sameUpToCase {a b : List Char} (hletters : Text.Spells false a b) :
    List.Forall₂ Event.SameUpToCase ((language false).events a) ((language false).events b) :=
  Grammar.sameUpToCase_events ignoresCase_grammar hletters

/-- A label, an exponent and a word that begins no statement, in either case. -/
theorem events_sameUpToCase_word :
    let a := "material Glow\nlod_bias 1E2\nOops".toList
    let b := "MATERIAL gLOW\nLod_Bias 1e2\noOPS".toList
    Text.Spells false a b ∧ ((language false).events a).length = 3 ∧
      List.Forall₂ Event.SameUpToCase ((language false).events a) ((language false).events b) := by
  intro a b
  have hletters : Text.Spells false a b := Text.spells_iff.mpr (by decide +kernel)
  have hlength : ((language false).events a).length = 3 := by decide +kernel
  exact ⟨hletters, hlength, events_sameUpToCase hletters⟩

end Script
end Compositing
