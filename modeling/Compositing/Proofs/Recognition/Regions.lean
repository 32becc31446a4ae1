import Compositing.Language
import Compositing.Proofs.Recognition.Agreement
import Compositing.Proofs.Recognition.Furthest
import Compositing.Proofs.Text.Gap

/-! # The regions of a text

    Cutting a text into statements accounts for all of it.  The text is a row
    of regions, one for each event, with a gap before each and an ending after
    the last.  A statement has the region that it matched, a mismatch the one
    that is skipped for it.  A region has at least one character, so the text
    comes to its end, and after at most as many events as it has characters. -/

namespace Compositing

/-! ## Resynchronisation -/

namespace Resync

/-- Skipping passes on: what was passed stays passed, no more is passed than there is, and
    something is where there is something. -/
theorem lengthFrom_bounds (mode : Mode) (depth taken : Nat) (text : List Char) :
    taken ≤ lengthFrom mode depth taken text ∧
      lengthFrom mode depth taken text ≤ taken + text.length ∧
      (text ≠ [] → 0 < lengthFrom mode depth taken text) := by
  -- every step but a last one passes a character, and the last passes one if none was passed
  fun_induction lengthFrom mode depth taken text
  all_goals grind

theorem length_le (text : List Char) : length text ≤ text.length := by
  have h := (lengthFrom_bounds (.code false) 0 0 text).2.1
  rwa [Nat.zero_add] at h

theorem length_pos {text : List Char} (h : text ≠ []) : 0 < length text :=
  (lengthFrom_bounds (.code false) 0 0 text).2.2 h

end Resync

/-- No event is left at the ending of a text. -/
theorem Event.next?_of_ending {recognize : Position → Recognition} {p : Position}
    (hp : Text.IsEnding p.rest) : next? recognize p = none := by
  have hatEnd : p.skipTrivia.atEnd = true := by
    simp [Position.atEnd, Position.skipTrivia_ending hp]
  simp [next?, hatEnd]

/-! ## Regions -/

/-- A part of a text that makes an event, and the gap in front of it. -/
structure Region where
  gap : List Char
  content : List Char
  event : Event

/-- The text of a region, its gap included. -/
def Region.text (r : Region) : List Char := r.gap ++ r.content

namespace Language
variable {α : Type}

/-- The outcome of matching a statement between two parts of a text. -/
def outcomeBetween (l : Language α) (before after : List Char) : Recognition :=
  l.grammar.recognizeAt l.lexicon.caseSensitive l.grammar.statement (before ++ after)
    (Text.byteLength before) (1 + Text.newlines before)

/-- What an event says of the region that makes it, which is `content`, with `before` in front
    of it and `after` behind it. -/
def Tells (l : Language α) (before content after : List Char) : Event → Prop
  | .statement s =>
    -- a match reaches from the beginning of the region to its end
    let outcome := l.outcomeBetween before (content ++ after)
    outcome.matched = true ∧ outcome.position = .between (before ++ content) after ∧
      s = ⟨outcome.tokens, Text.byteLength before, 1 + Text.newlines before⟩
  | .mismatch m =>
    -- no match leaves the beginning of the region, which is skipped
    let outcome := l.outcomeBetween before (content ++ after)
    (outcome.matched = false ∨ outcome.position = .between before (content ++ after)) ∧
      content = (content ++ after).take (Resync.length (content ++ after)) ∧
      ∃ passed ahead, content ++ after = passed ++ ahead ∧ m.offset = outcome.furthest ∧
        m.offset = Text.byteLength (before ++ passed) ∧
        m.line = 1 + Text.newlines (before ++ passed) ∧
        m.nearby = Mismatch.nearbyWord? ahead

/-- A region accounts for what is between two parts of a text: a gap, then some characters,
    which begin with no gap and make its event.  They are a mismatch exactly if no statement
    matches at their beginning, or one that takes nothing. -/
structure Accounts (l : Language α) (before : List Char) (r : Region) (after : List Char) :
    Prop where
  gap : Text.IsGap r.gap
  content : r.content ≠ []
  plain : Text.IsPlain (r.content ++ after)
  event : l.Tells (before ++ r.gap) r.content after r.event
  isMismatch : (∃ m, r.event = .mismatch m) ↔
    (l.outcomeBetween (before ++ r.gap) (r.content ++ after)).matched = false ∨
      (l.outcomeBetween (before ++ r.gap) (r.content ++ after)).position =
        .between (before ++ r.gap) (r.content ++ after)

/-! ## One event -/

/-- How the next statement is matched. -/
def recognizer (l : Language α) (p : Position) : Recognition :=
  l.grammar.recognize l.lexicon.caseSensitive l.grammar.statement p p.offset

variable {l : Language α}

theorem recognizer_between (before after : List Char) :
    l.recognizer (.between before after) = l.outcomeBetween before after := by
  unfold recognizer outcomeBetween Grammar.recognizeAt
  rw [Position.seek_append]
  rfl

/-- A match leads forward. -/
theorem reaches_outcome (before after : List Char) :
    (Position.between before after).Reaches (l.outcomeBetween before after).position := by
  obtain ⟨outcome, hpeg, hreports⟩ := Recognition.reports_recognize l.grammar
    l.lexicon.caseSensitive l.grammar.statement (.between before after)
    (Position.between before after).offset
  have hposition := hreports.position
  rw [← recognizer_between, recognizer, hposition]
  cases outcome with
  | none => exact .refl _
  | some result => exact hpeg.reaches

/-- A match that keeps the offset keeps the position. -/
theorem outcome_of_offset {before after : List Char}
    (h : ¬ Text.byteLength before < (l.outcomeBetween before after).position.offset) :
    (l.outcomeBetween before after).position = .between before after := by
  obtain ⟨n, hn⟩ := reaches_outcome (l := l) before after
  rw [hn] at h ⊢
  refine Position.advance_eq_self_of_offset ?_
  rw [Position.advance_offset] at h ⊢
  have hoffset : (Position.between before after).offset = Text.byteLength before := rfl
  omega

/-- The furthest failure lies between two characters. -/
theorem furthest_between (before after : List Char) :
    ∃ passed ahead, after = passed ++ ahead ∧
      (l.outcomeBetween before after).furthest = Text.byteLength (before ++ passed) ∧
      (Position.between before after).forwardTo (l.outcomeBetween before after).furthest =
        .between (before ++ passed) ahead := by
  obtain ⟨_, ⟨n, rfl⟩, hfurthest⟩ := Recognition.reachesOffset_furthest l.grammar
    l.lexicon.caseSensitive l.grammar.statement (.between before after)
  have hfurthest : (l.outcomeBetween before after).furthest =
      ((Position.between before after).advance n).offset := by
    rw [← recognizer_between]
    exact hfurthest
  refine ⟨after.take n, after.drop n, (List.take_append_drop n after).symm, ?_, ?_⟩
  · rw [hfurthest, Position.between_advance]
    rfl
  · rw [hfurthest, Position.forwardTo_advance, Position.between_advance]

section
variable {before text : List Char} {p : Position}

/-- A match that moves on is the next event. -/
theorem next?_of_matched (hp : p.skipTrivia = .between before text) (hne : text ≠ [])
    (hmatched : (l.outcomeBetween before text).matched = true)
    (hforward : Text.byteLength before < (l.outcomeBetween before text).position.offset) :
    Event.next? l.recognizer p =
      some (.statement ⟨(l.outcomeBetween before text).tokens, Text.byteLength before,
        1 + Text.newlines before⟩, (l.outcomeBetween before text).position) := by
  have hatEnd : (Position.between before text).atEnd = false := by
    simpa [Position.atEnd, Position.between] using hne
  have hcondition : ((l.outcomeBetween before text).matched &&
      decide (Text.byteLength before < (l.outcomeBetween before text).position.offset)) = true := by
    simp [hmatched, hforward]
  unfold Event.next?
  simp only [hp, hatEnd, Bool.false_eq_true, if_false, recognizer_between]
  exact if_pos hcondition

/-- Otherwise a mismatch is, and it is skipped. -/
theorem next?_of_unmatched (hp : p.skipTrivia = .between before text) (hne : text ≠ [])
    (hunmatched : ¬ ((l.outcomeBetween before text).matched = true ∧
      Text.byteLength before < (l.outcomeBetween before text).position.offset)) :
    Event.next? l.recognizer p =
      let failure := (Position.between before text).forwardTo
        (l.outcomeBetween before text).furthest
      some (.mismatch ⟨failure.offset, failure.line, Mismatch.nearbyWord? failure.rest⟩,
        (Position.between before text).advance (Resync.length text)) := by
  have hatEnd : (Position.between before text).atEnd = false := by
    simpa [Position.atEnd, Position.between] using hne
  have hcondition : ¬ ((l.outcomeBetween before text).matched &&
      decide (Text.byteLength before < (l.outcomeBetween before text).position.offset)) = true := by
    simpa using hunmatched
  unfold Event.next?
  simp only [hp, hatEnd, Bool.false_eq_true, if_false, recognizer_between]
  exact if_neg hcondition

/-- A statement takes something, so it is told from a mismatch by the match. -/
theorem Tells.isMismatch {content after : List Char} {event : Event}
    (h : l.Tells before content after event) (hcontent : content ≠ []) :
    (∃ m, event = .mismatch m) ↔
      (l.outcomeBetween before (content ++ after)).matched = false ∨
        (l.outcomeBetween before (content ++ after)).position =
          .between before (content ++ after) := by
  cases event with
  | mismatch m => exact ⟨fun _ => h.1, fun _ => ⟨m, rfl⟩⟩
  | statement s =>
    obtain ⟨hmatched, hposition, _⟩ := h
    refine ⟨nofun, ?_⟩
    rintro (hunmatched | hstays)
    · rw [hmatched] at hunmatched
      cases hunmatched
    · have hrest := congrArg Position.rest (hposition.symm.trans hstays)
      exact absurd (List.self_eq_append_left.mp hrest) hcontent

/-- From a place that begins with no gap the next event has a region. -/
theorem exists_content (hp : p.skipTrivia = .between before text) (hne : text ≠ []) :
    ∃ content after event, text = content ++ after ∧ content ≠ [] ∧
      l.Tells before content after event ∧
      Event.next? l.recognizer p = some (event, .between (before ++ content) after) := by
  by_cases hmatch : (l.outcomeBetween before text).matched = true ∧
      Text.byteLength before < (l.outcomeBetween before text).position.offset
  · -- the region of a statement is what the match passed
    obtain ⟨hmatched, hforward⟩ := hmatch
    have hnext := next?_of_matched hp hne hmatched hforward
    obtain ⟨n, hn⟩ := reaches_outcome (l := l) before text
    rw [Position.between_advance] at hn
    rw [hn] at hforward hnext
    refine ⟨text.take n, text.drop n, _, (List.take_append_drop n text).symm, ?_, ?_, hnext⟩
    · intro hnil
      simp [Position.between, hnil] at hforward
    · refine ⟨?_, ?_, ?_⟩ <;> rw [List.take_append_drop]
      · exact hmatched
      · exact hn
  · -- the region of a mismatch is what is skipped; what it reports may lie behind that
    have hnext := next?_of_unmatched hp hne hmatch
    obtain ⟨passed, ahead, htext, hfurthest, hfailure⟩ := furthest_between (l := l) before text
    rw [hfailure, Position.between_advance] at hnext
    refine ⟨text.take (Resync.length text), text.drop (Resync.length text), _,
      (List.take_append_drop _ text).symm, ?_, ?_, hnext⟩
    · have hpos := Resync.length_pos hne
      intro hnil
      rcases List.take_eq_nil_iff.mp hnil with hzero | hnil
      · omega
      · exact hne hnil
    · refine ⟨?_, ?_, passed, ahead, ?_, ?_, rfl, rfl, rfl⟩ <;> rw [List.take_append_drop]
      · by_cases hmatched : (l.outcomeBetween before text).matched = true
        · exact .inr (outcome_of_offset fun hforward => hmatch ⟨hmatched, hforward⟩)
        · exact .inl (by simpa using hmatched)
      · exact htext
      · exact hfurthest.symm

end

/-- There is no event left at the ending of a text, and elsewhere the next one has a region. -/
theorem next?_cases (l : Language α) (before text : List Char) :
    (Text.IsEnding text ∧ Event.next? l.recognizer (.between before text) = none) ∨
    ∃ (r : Region) (after : List Char), text = r.text ++ after ∧ l.Accounts before r after ∧
      Event.next? l.recognizer (.between before text) =
        some (r.event, .between (before ++ r.text) after) := by
  obtain ⟨gap, rest, rfl, hgap, hplain | ⟨body, hbody, rfl⟩⟩ := Text.exists_gap text
  · by_cases hne : rest = []
    · subst hne
      have hending : Text.IsEnding (gap ++ []) := ⟨gap, hgap, .inl (List.append_nil gap)⟩
      exact .inl ⟨hending, Event.next?_of_ending hending⟩
    · have hp := Position.skipTrivia_between before hgap hplain
      obtain ⟨content, after, event, rfl, hcontent, htells, hnext⟩ := exists_content hp hne
      refine .inr ⟨⟨gap, content, event⟩, after, ?_,
        ⟨hgap, hcontent, hplain, htells, htells.isMismatch hcontent⟩, ?_⟩
      · rw [Region.text, List.append_assoc]
      · rw [hnext, Region.text, List.append_assoc]
  · have hending : Text.IsEnding (gap ++ '/' :: '/' :: body) :=
      ⟨gap, hgap, .inr ⟨body, hbody, rfl⟩⟩
    exact .inl ⟨hending, Event.next?_of_ending hending⟩

end Language

/-! ## All events -/

/-- Taking events one after the other from a position on, until there is none left. -/
inductive Event.Run (recognize : Position → Recognition) : Position → List Event → Prop where
  | done {p : Position} (hnext : next? recognize p = none) : Run recognize p []
  | next {p q : Position} {event : Event} {events : List Event}
    (hnext : next? recognize p = some (event, q)) (hrest : Run recognize q events) :
    Run recognize p (event :: events)

/-- With fuel for each of them, the events of a run are all events. -/
theorem Event.Run.all_eq {recognize : Position → Recognition} {p : Position}
    {events : List Event} (h : Run recognize p events) {fuel : Nat}
    (hfuel : events.length ≤ fuel) : all recognize fuel p = events := by
  induction h generalizing fuel with
  | done hnext =>
    cases fuel with
    | zero => rfl
    | succ fuel => simp only [all, hnext]
  | next hnext _ ih =>
    cases fuel with
    | zero => cases hfuel
    | succ fuel => simp only [all, hnext, ih (Nat.le_of_succ_le_succ hfuel)]

namespace Language
variable {α : Type}

/-- Every region that is accounted for in a row of them, up to the ending of a text. -/
theorem exists_regions (l : Language α) (before text : List Char) :
    ∃ (regions : List Region) (ending : List Char),
      text = regions.flatMap Region.text ++ ending ∧ Text.IsEnding ending ∧
      Event.Run l.recognizer (.between before text) (regions.map Region.event) ∧
      regions.length ≤ text.length ∧
      ∀ front r rest, regions = front ++ r :: rest →
        l.Accounts (before ++ front.flatMap Region.text) r
          (rest.flatMap Region.text ++ ending) := by
  rcases l.next?_cases before text with ⟨hending, hnext⟩ | ⟨r, after, htext, haccounts, hnext⟩
  · exact ⟨[], text, rfl, hending, .done hnext, Nat.zero_le _, by simp⟩
  · have hpos : 0 < r.content.length := List.length_pos_iff.mpr haccounts.content
    have hless : r.text.length + after.length = text.length := by
      rw [htext, List.length_append]
    have hregion : r.text.length = r.gap.length + r.content.length := List.length_append
    -- a region has a character, so what follows it is shorter
    obtain ⟨regions, ending, hafter, hending, hrun, hlength, hregions⟩ :=
      exists_regions l (before ++ r.text) after
    refine ⟨r :: regions, ending, ?_, hending, .next hnext hrun, ?_, ?_⟩
    · rw [htext, hafter, List.flatMap_cons, List.append_assoc]
    · rw [List.length_cons]
      omega
    · intro front r' rest hsplit
      rcases List.cons_eq_append_iff.mp hsplit with ⟨rfl, hrest⟩ | ⟨front', rfl, hrest⟩
      · cases hrest
        rw [← hafter]
        simpa using haccounts
      · have h := hregions front' r' rest hrest
        rwa [List.flatMap_cons, ← List.append_assoc]
termination_by text.length
decreasing_by omega

/-- The events of a text are those of a row of regions that makes it up, and there are no more of
    them than characters. -/
theorem exists_regions_events (l : Language α) (text : List Char) :
    ∃ (regions : List Region) (ending : List Char),
      l.events text = regions.map Region.event ∧ regions.length ≤ text.length ∧
      Event.Run l.recognizer (.start text) (regions.map Region.event) ∧
      text = regions.flatMap Region.text ++ ending ∧ Text.IsEnding ending ∧
      ∀ front r rest, regions = front ++ r :: rest →
        l.Accounts (front.flatMap Region.text) r (rest.flatMap Region.text ++ ending) := by
  obtain ⟨regions, ending, htext, hending, hrun, hlength, hregions⟩ := l.exists_regions [] text
  have hevents : l.events text = regions.map Region.event :=
    hrun.all_eq (by rwa [List.length_map])
  exact ⟨regions, ending, hevents, hlength, hrun, htext, hending, hregions⟩

/-- Taking one event after the other comes to the events of a text and then to none. -/
theorem run_events (l : Language α) (text : List Char) :
    Event.Run l.recognizer (.start text) (l.events text) := by
  obtain ⟨regions, ending, hevents, _, hrun, _⟩ := l.exists_regions_events text
  rwa [hevents]

/-- Cutting a text into statements accounts for all of it and ends.  The events are those of a
    row of regions, which make up the text with a gap before each and an ending after the last.
    Taking one event after the other comes to these and then to none, and there are no more of
    them than characters. -/
theorem regions_of_events (l : Language α) (text : List Char) :
    ∃ (regions : List Region) (ending : List Char),
      l.events text = regions.map Region.event ∧
      Event.Run l.recognizer (.start text) (l.events text) ∧
      (l.events text).length ≤ text.length ∧
      text = regions.flatMap Region.text ++ ending ∧ Text.IsEnding ending ∧
      ∀ front r rest, regions = front ++ r :: rest →
        l.Accounts (front.flatMap Region.text) r (rest.flatMap Region.text ++ ending) := by
  obtain ⟨regions, ending, hevents, hlength, hrun, htext, hending, hregions⟩ :=
    l.exists_regions_events text
  refine ⟨regions, ending, hevents, l.run_events text, ?_, htext, hending, hregions⟩
  rwa [hevents, List.length_map]

end Language
end Compositing
