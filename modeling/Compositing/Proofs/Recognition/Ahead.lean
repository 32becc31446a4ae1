import Compositing.Proofs.Recognition.Joining
import Compositing.Script.Production

/-! # Looking ahead only

    Matching and cutting a text into statements read what is ahead, and
    nothing of what is behind.  Whatever text stands in front, a match at a
    place of the text behind it has the outcome it has without it, further
    down by what is in front.  Events that end where the front does are
    followed by those of the text behind it alone. -/

namespace Compositing

/-! ## Parts of a text -/

namespace Text

/-- The offset lies between two characters of the text, or at one of its ends. -/
def IsBoundary (text : List Char) (offset : Nat) : Prop :=
  ∃ before after, text = before ++ after ∧ offset = byteLength before

end Text

namespace Position
variable (before : List Char) {text : List Char} {offset : Nat}

/-- A place of a text that has another one in front. -/
theorem seek_moved (line lines : Nat) (h : Text.IsBoundary text offset) :
    seek (before ++ text) (Text.byteLength before + offset) (line + lines) =
      (seek text offset line).moved (Text.byteLength before) lines := by
  obtain ⟨passed, ahead, rfl, rfl⟩ := h
  rw [seek_append, ← List.append_assoc, ← Text.byteLength_append, seek_append,
    Text.byteLength_append, Nat.add_comm]
  rfl

/-- A place of a text that has another one in front, with the lines of both. -/
theorem start_advanceBytes_moved (h : Text.IsBoundary text offset) :
    (start (before ++ text)).advanceBytes (Text.byteLength before + offset) =
      ((start text).advanceBytes offset).moved (Text.byteLength before)
        (Text.newlines before) := by
  obtain ⟨passed, ahead, rfl, rfl⟩ := h
  rw [start_advanceBytes, ← List.append_assoc, ← Text.byteLength_append, start_advanceBytes,
    Text.byteLength_append, Text.newlines_append]
  simp only [moved, mk.injEq, true_and]
  omega

end Position

/-! ## Events up to a place -/

/-- Taking the events from a position on leads to another position. -/
inductive Event.Leads (recognize : Position → Recognition) :
    Position → List Event → Position → Prop where
  | refl (p : Position) : Leads recognize p [] p
  | next {p q r : Position} {event : Event} {events : List Event}
    (hnext : next? recognize p = some (event, q)) (hrest : Leads recognize q events r) :
    Leads recognize p (event :: events) r

namespace Event.Leads
variable {recognize : Position → Recognition} {p q : Position} {events rest : List Event}

/-- The events up to a place and those from it on are all events. -/
theorem run (h : Leads recognize p events q) (hrest : Run recognize q rest) :
    Run recognize p (events ++ rest) := by
  induction h with
  | refl p => exact hrest
  | next hnext _ ih => exact .next hnext (ih hrest)

end Event.Leads

namespace Language
variable {α : Type} {l : Language α}

/-- Events lead from between two parts of a text to between two parts of it. -/
theorem leads_between {p q : Position} {events : List Event}
    (h : Event.Leads l.recognizer p events q) {before after : List Char}
    (hp : p = .between before after) :
    ∃ passed ahead, after = passed ++ ahead ∧ q = .between (before ++ passed) ahead := by
  induction h generalizing before after with
  | refl p => exact ⟨[], after, rfl, by rw [hp, List.append_nil]⟩
  | next hnext _ ih =>
    rw [hp] at hnext
    rcases l.next?_cases before after with ⟨_, hnone⟩ | ⟨r, behind, rfl, _, hsome⟩
    · rw [hnone] at hnext
      cases hnext
    · rw [hsome] at hnext
      cases hnext
      obtain ⟨passed, ahead, rfl, hq⟩ := ih rfl
      refine ⟨r.text ++ passed, ahead, (List.append_assoc _ _ _).symm, ?_⟩
      rw [hq, List.append_assoc]

/-- A place that events lead to from the start is known by its offset. -/
theorem leads_start {before text : List Char} {events : List Event} {q : Position}
    (h : Event.Leads l.recognizer (.start (before ++ text)) events q)
    (hoffset : q.offset = Text.byteLength before) :
    q = (Position.start text).moved (Text.byteLength before) (Text.newlines before) := by
  have hstart : Position.start (before ++ text) = .between [] (before ++ text) := rfl
  obtain ⟨passed, ahead, hsplit, rfl⟩ := leads_between h hstart
  rw [List.nil_append] at hoffset ⊢
  obtain ⟨rfl, rfl⟩ := Position.append_inj_of_byteLength hsplit hoffset.symm
  simp [Position.between, Position.start, Position.moved]

/-! ## What is in front makes no difference -/

/-- A text with another one in front is matched and cut into statements as it is alone, further
    down.  An element matches alike at each of its places, with lines counted from wherever; a
    rule does, with the lines counted from the start of the text; and once the events of the
    whole have come to the end of what is in front, those of the text alone follow. -/
theorem looks_ahead (l : Language α) (before text : List Char) :
    (∀ e offset line lines, Text.IsBoundary text offset →
      l.grammar.recognizeAt l.lexicon.caseSensitive e (before ++ text)
          (Text.byteLength before + offset) (line + lines) =
        (l.grammar.recognizeAt l.lexicon.caseSensitive e text offset line).moved
          (Text.byteLength before) lines) ∧
    (∀ id offset, Text.IsBoundary text offset →
      l.grammar.recognizeRuleAt l.lexicon.caseSensitive id (before ++ text)
          (Text.byteLength before + offset) =
        (l.grammar.recognizeRuleAt l.lexicon.caseSensitive id text offset).moved
          (Text.byteLength before) (Text.newlines before)) ∧
    (∀ events q, Event.Leads l.recognizer (.start (before ++ text)) events q →
      q.offset = Text.byteLength before →
        l.events (before ++ text) =
          events ++ (l.events text).map
            (Event.moved (Text.byteLength before) (Text.newlines before))) := by
  refine ⟨?_, ?_, ?_⟩
  · intro e offset line lines hboundary
    unfold Grammar.recognizeAt
    rw [Position.seek_moved before line lines hboundary, Nat.add_comm _ offset,
      Recognition.recognize_moved]
  · intro id offset hboundary
    unfold Grammar.recognizeRuleAt
    rw [Position.start_advanceBytes_moved before hboundary]
    exact Recognition.ofAttempt_moved (Recognition.rule_isMovable l.grammar _ true id) _ _
  · intro events q hleads hoffset
    have hwhole := l.run_events (before ++ text)
    have halone := l.run_events text
    -- the run of the text alone, further down, begins where the events lead
    have hmoved := halone.moved
      (recognizer_moved (Text.byteLength before) (Text.newlines before))
    rw [← leads_start hleads hoffset] at hmoved
    exact hwhole.unique (hleads.run hmoved)

/-- A word that begins no statement, and a compositor behind it. -/
theorem looks_ahead_compositor :
    let l := Script.language true
    let front := "oops\n".toList
    let text := "compositor Bloom \x7b \x7d".toList
    l.grammar.recognizeAt true l.grammar.statement (front ++ text) 5 2 =
        (l.grammar.recognizeAt true l.grammar.statement text 0 1).moved 5 1 ∧
      l.grammar.recognizeRuleAt true l.grammar.start (front ++ text) 5 =
        (l.grammar.recognizeRuleAt true l.grammar.start text 0).moved 5 1 ∧
      l.events (front ++ text) =
        .mismatch ⟨0, 1, some "oops"⟩ :: (l.events text).map (Event.moved 5 1) := by
  intro l front text
  obtain ⟨helement, hrule, hevents⟩ := looks_ahead l front text
  have hboundary : Text.IsBoundary text 0 := ⟨[], text, rfl, rfl⟩
  have hnext : Event.next? l.recognizer (.start (front ++ text)) =
      some (.mismatch ⟨0, 1, some "oops"⟩, ⟨text, 5, 2⟩) := by
    decide +kernel
  exact ⟨helement _ 0 1 1 hboundary, hrule _ 0 hboundary,
    hevents _ _ (.next hnext (.refl _)) rfl⟩

end Language
end Compositing
