import Compositing.Proofs.Recognition.Moving
import Compositing.Proofs.Recognition.Regions
import Compositing.Proofs.Text.Continuing

/-! # Two texts, one after the other

    A text all of which is statements is put in front of another one, with a
    line end between the two.  If the matches of its statements last, the
    events of the whole are its own and then those of the other text, further
    down. -/

namespace Compositing

/-! ## Runs of events -/

namespace Event.Run
variable {recognize : Position → Recognition} {p q : Position} {events events' : List Event}

/-- The events from a position on are determined. -/
theorem unique (h : Run recognize p events) (h' : Run recognize p events') : events = events' :=
  (h.all_eq (Nat.le_max_left events.length events'.length)).symm.trans
    (h'.all_eq (Nat.le_max_right _ _))

/-- White space and comments in front of the next event make no difference. -/
theorem of_skipTrivia (hskip : q.skipTrivia = p.skipTrivia) (h : Run recognize p events) :
    Run recognize q events := by
  have hnext : next? recognize q = next? recognize p := by
    unfold next?
    rw [hskip]
  cases h with
  | done h => exact .done (hnext.trans h)
  | next h hrest => exact .next (hnext.trans h) hrest

/-- The events of a text that stands further down. -/
theorem moved {bytes lines : Nat}
    (hmoved : ∀ p : Position, recognize (p.moved bytes lines) = (recognize p).moved bytes lines)
    (h : Run recognize p events) :
    Run recognize (p.moved bytes lines) (events.map (Event.moved bytes lines)) := by
  induction h with
  | done hnext => exact .done (by rw [next?_moved hmoved, hnext]; rfl)
  | next hnext _ ih => exact .next (by rw [next?_moved hmoved, hnext]; rfl) ih

end Event.Run

namespace Language
variable {α : Type} {l : Language α}

theorem recognizer_moved (bytes lines : Nat) (p : Position) :
    l.recognizer (p.moved bytes lines) = (l.recognizer p).moved bytes lines :=
  Recognition.recognize_moved l.grammar l.lexicon.caseSensitive l.grammar.statement p p.offset

/-! ## Joining -/

/-- If a statement matches between two parts of a text, it does so when the text goes on with
    `more`. -/
def LastsBetween (l : Language α) (more before text : List Char) : Prop :=
  (l.outcomeBetween before text).matched = true →
    (l.outcomeBetween before (text ++ '\n' :: more)).matched = true ∧
      (l.outcomeBetween before (text ++ '\n' :: more)).position =
        (l.outcomeBetween before text).position.continued more ∧
      (l.outcomeBetween before (text ++ '\n' :: more)).tokens =
        (l.outcomeBetween before text).tokens

/-- A statement whose match lasts is the next event when the text goes on. -/
theorem next?_continued {before after more : List Char} {r : Region} {s : Statement}
    (haccounts : l.Accounts before r after) (hevent : r.event = .statement s)
    (hlasts : l.LastsBetween more (before ++ r.gap) (r.content ++ after)) :
    Event.next? l.recognizer (.between before (r.text ++ after ++ '\n' :: more)) =
      some (r.event, .between (before ++ r.text) (after ++ '\n' :: more)) := by
  have htells := haccounts.event
  rw [hevent] at htells ⊢
  obtain ⟨hmatched, hposition, rfl⟩ := htells
  obtain ⟨hmatched', hposition', htokens'⟩ := hlasts hmatched
  rw [hposition] at hposition'
  have hcontent : r.content ++ after ≠ [] := by simp [haccounts.content]
  have hplain := haccounts.plain.continued hcontent more
  have hskip := Position.skipTrivia_between before haccounts.gap hplain
  have hsplit : r.text ++ after ++ '\n' :: more =
      r.gap ++ (r.content ++ after ++ '\n' :: more) := by
    simp [Region.text]
  rw [hsplit, next?_of_matched hskip (by simp) hmatched' ?_, hposition', htokens']
  · simp [Region.text, Position.continued, Position.between]
  · -- the match takes the content of the region
    rw [hposition']
    have hpos : Text.byteLength r.content ≠ 0 :=
      fun hzero => haccounts.content (Text.byteLength_eq_zero_iff.mp hzero)
    simp only [Position.continued_offset, Position.between, Text.byteLength_append]
    omega

/-- A row of regions that are statements whose matches last, and then more. -/
theorem run_continued (before : List Char) (regions : List Region) {ending more : List Char}
    {events : List Event} (hending : Text.IsEnding ending)
    (hregions : ∀ front r rest, regions = front ++ r :: rest →
      l.Accounts (before ++ front.flatMap Region.text) r (rest.flatMap Region.text ++ ending) ∧
      (∃ s, r.event = .statement s) ∧
      l.LastsBetween more (before ++ front.flatMap Region.text ++ r.gap)
        (r.content ++ (rest.flatMap Region.text ++ ending)))
    (hmore : Event.Run l.recognizer
      (.between (before ++ (regions.flatMap Region.text ++ ending) ++ ['\n']) more) events) :
    Event.Run l.recognizer
      (.between before (regions.flatMap Region.text ++ ending ++ '\n' :: more))
      (regions.map Region.event ++ events) := by
  induction regions generalizing before with
  | nil =>
    rw [List.flatMap_nil, List.nil_append] at hmore ⊢
    exact hmore.of_skipTrivia (Position.between_skipTrivia_ending more before hending)
  | cons r regions ih =>
    obtain ⟨haccounts, ⟨s, hevent⟩, hlasts⟩ := hregions [] r regions rfl
    rw [List.flatMap_nil, List.append_nil] at haccounts hlasts
    have hnext := next?_continued haccounts hevent hlasts
    have hsplit : (r :: regions).flatMap Region.text ++ ending ++ '\n' :: more =
        r.text ++ (regions.flatMap Region.text ++ ending) ++ '\n' :: more := by
      simp
    rw [hsplit, List.map_cons, List.cons_append]
    refine .next hnext (ih (before ++ r.text) ?_ ?_)
    · intro front r' rest hregion
      have hrest := hregions (r :: front) r' rest (by rw [hregion]; rfl)
      rwa [List.flatMap_cons, ← List.append_assoc] at hrest
    · rwa [List.flatMap_cons, List.append_assoc r.text, ← List.append_assoc before] at hmore

/-- The events of two texts with a line end between them, if the first is all statements and their
    matches last: those of the first, and those of the second further down. -/
theorem events_joined (text more : List Char)
    (hstatements : ∀ event ∈ l.events text, ∃ s, event = .statement s)
    (hlasts : ∀ s before after, .statement s ∈ l.events text → text = before ++ after →
      Text.byteLength before = s.offset → Text.IsPlain after →
        l.LastsBetween more before after) :
    l.events (text ++ '\n' :: more) =
      l.events text ++ (l.events more).map
        (Event.moved (Text.byteLength text + 1) (Text.newlines text + 1)) := by
  obtain ⟨regions, ending, hevents, _, _, htext, hending, hregions⟩ := l.exists_regions_events text
  have hwhole := l.run_events (text ++ '\n' :: more)
  have hsecond := l.run_events more
  have hmoved := hsecond.moved (recognizer_moved (Text.byteLength text + 1)
    (Text.newlines text + 1))
  have hstart : (Position.start more).moved (Text.byteLength text + 1) (Text.newlines text + 1) =
      .between ([] ++ (regions.flatMap Region.text ++ ending) ++ ['\n']) more := by
    have hbytes : Text.byteLength ['\n'] = 1 := rfl
    have hlines : Text.newlines ['\n'] = 1 := rfl
    rw [← htext, List.nil_append, Position.between, Text.byteLength_append, Text.newlines_append,
      hbytes, hlines]
    simp [Position.start, Position.moved]
  rw [hstart] at hmoved
  have hrow : ∀ front r rest, regions = front ++ r :: rest →
      l.Accounts ([] ++ front.flatMap Region.text) r (rest.flatMap Region.text ++ ending) ∧
      (∃ s, r.event = .statement s) ∧
      l.LastsBetween more ([] ++ front.flatMap Region.text ++ r.gap)
        (r.content ++ (rest.flatMap Region.text ++ ending)) := by
    intro front r rest hsplit
    have haccounts := hregions front r rest hsplit
    have hmem : r.event ∈ l.events text := by
      rw [hevents, hsplit]
      simp
    obtain ⟨s, hevent⟩ := hstatements r.event hmem
    refine ⟨haccounts, ⟨s, hevent⟩, ?_⟩
    have htells := haccounts.event
    rw [hevent] at htells hmem
    obtain ⟨_, _, rfl⟩ := htells
    refine hlasts _ _ _ hmem ?_ rfl haccounts.plain
    rw [htext, hsplit]
    simp [Region.text]
  have hjoined := run_continued [] regions hending hrow hmoved
  rw [← htext, ← hevents] at hjoined
  exact hwhole.unique hjoined

end Language
end Compositing
