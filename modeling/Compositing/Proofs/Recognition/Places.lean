import Compositing.Proofs.Recognition.Course
import Compositing.Proofs.Recognition.Regions

/-! # The places of events

    A mismatch and a token tell a byte offset and a line.  The offset is that of
    a place between two characters of the text, and the line is one more than
    the line ends in front of the place. -/

namespace Compositing

/-- A byte offset between two characters of the text and the line, counted from 1, that it is
    on. -/
def Text.IsPlace (text : List Char) (offset line : Nat) : Prop :=
  ∃ passed ahead, text = passed ++ ahead ∧ offset = Text.byteLength passed ∧
    line = 1 + Text.newlines passed

section
variable {before after : List Char} {q : Position}

/-- What is reached from a place in a text is a place in it. -/
theorem Position.Reaches.isPlace (h : (Position.between before after).Reaches q) :
    Text.IsPlace (before ++ after) q.offset q.line := by
  obtain ⟨n, rfl⟩ := h
  refine ⟨before ++ after.take n, after.drop n, ?_, ?_, ?_⟩
  · rw [List.append_assoc, List.take_append_drop]
  · rw [Position.between_advance]
    rfl
  · rw [Position.between_advance]
    rfl

/-- The tokens of a match stand at places. -/
theorem Peg.isPlace_token {g : Grammar} {caseSensitive : Bool} {active : Nat} {phrase : Phrase}
    {tokens : List Token} {t : Token}
    (h : Peg g caseSensitive active phrase (.between before after) (some (q, tokens)))
    (ht : t ∈ tokens) : Text.IsPlace (before ++ after) t.offset t.line := by
  obtain ⟨leaves, hcourse, rfl⟩ := h.exists_course
  obtain ⟨leaf, hleaf, htoken⟩ := List.mem_filterMap.mp ht
  obtain ⟨kind, _, rfl⟩ := Option.map_eq_some_iff.mp htoken
  exact (hcourse.between.of_mem hleaf).1.isPlace

end

namespace Language
variable {α : Type} {l : Language α} {text : List Char}

/-- An event of a text tells of a part of it. -/
theorem exists_tells {event : Event} (h : event ∈ l.events text) :
    ∃ before content after, text = before ++ (content ++ after) ∧
      l.Tells before content after event := by
  obtain ⟨regions, ending, hevents, _, _, htext, _, haccounts⟩ := l.exists_regions_events text
  rw [hevents] at h
  obtain ⟨r, hr, rfl⟩ := List.mem_map.mp h
  obtain ⟨front, rest, hsplit⟩ := List.append_of_mem hr
  have haccount := haccounts front r rest hsplit
  refine ⟨front.flatMap Region.text ++ r.gap, r.content,
    rest.flatMap Region.text ++ ending, ?_, haccount.event⟩
  rw [htext, hsplit]
  simp [Region.text]

theorem isPlace_mismatch {m : Mismatch} (h : .mismatch m ∈ l.events text) :
    Text.IsPlace text m.offset m.line := by
  obtain ⟨before, content, after, rfl, htells⟩ := exists_tells h
  obtain ⟨_, _, passed, ahead, hahead, _, hoffset, hline, _⟩ := htells
  refine ⟨before ++ passed, ahead, ?_, hoffset, hline⟩
  rw [hahead, List.append_assoc]

theorem isPlace_token {statement : Statement} {t : Token}
    (h : .statement statement ∈ l.events text) (ht : t ∈ statement.tokens) :
    Text.IsPlace text t.offset t.line := by
  obtain ⟨before, content, after, rfl, hmatched, _, rfl⟩ := exists_tells h
  obtain ⟨outcome, hpeg, hreports⟩ := Recognition.reports_recognize l.grammar
    l.lexicon.caseSensitive l.grammar.statement (.between before (content ++ after))
    (Position.between before (content ++ after)).offset
  have hrecognize : l.outcomeBetween before (content ++ after) =
      l.grammar.recognize l.lexicon.caseSensitive l.grammar.statement
        (.between before (content ++ after)) (Text.byteLength before) :=
    (recognizer_between before (content ++ after)).symm
  rw [hrecognize] at hmatched
  simp only [hrecognize] at ht
  have hsome : outcome.isSome = true := hreports.matched.symm.trans hmatched
  obtain ⟨⟨q, tokens⟩, rfl⟩ := Option.isSome_iff_exists.mp hsome
  have htokens := hreports.tokens
  simp only [Option.map_some, Option.getD_some] at htokens
  exact hpeg.isPlace_token (htokens ▸ ht)

end Language
end Compositing
