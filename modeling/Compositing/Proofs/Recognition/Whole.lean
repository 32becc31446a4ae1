import Compositing.Proofs.Recognition.Ahead
import Compositing.Proofs.Recognition.Trials
import Compositing.Proofs.Recognition.Trivia

/-! # A text as a whole

    Where the start rule is one repetition, a text can be matched in two ways:
    by the start rule from its beginning on, or statement by statement, with
    each begun afresh behind the gap in front of it.  Both take the same
    statements up to the first mismatch and have the same tokens, unless the
    one more rule under way in the first is one too many.  In the language of
    compositor scripts it never is. -/

namespace Compositing

/-- The statements before the first mismatch. -/
def Event.leading : List Event → List Statement
  | .statement s :: rest => s :: leading rest
  | _ => []

namespace Language
variable {α : Type}

/-- The outcome of matching the start rule at the beginning of a text. -/
def whole (l : Language α) (text : List Char) : Recognition :=
  l.grammar.recognizeRuleAt l.lexicon.caseSensitive l.grammar.start text 0

/-- Matching the start rule agrees with cutting the text into statements: it matches, has the
    tokens of the statements before the first mismatch, and ends where these lead to. -/
structure WholeAgrees (l : Language α) (text : List Char) : Prop where
  matched : (l.whole text).matched = true
  tokens : (l.whole text).tokens = (Event.leading (l.events text)).flatMap Statement.tokens
  position : Event.Leads l.recognizer (.start text)
    ((Event.leading (l.events text)).map .statement) (l.whole text).position

variable {l : Language α}

/-! ## One round -/

/-- A statement that moves on from behind a gap is the next event in front of the gap. -/
theorem next?_of_peg {p q : Position} {tokens : List Token}
    (hpeg : Peg l.grammar l.lexicon.caseSensitive 0 (.element l.grammar.statement) p.skipTrivia
      (some (q, tokens))) (hforward : p.skipTrivia.offset < q.offset) :
    Event.next? l.recognizer p =
      some (.statement ⟨tokens, p.skipTrivia.offset, p.skipTrivia.line⟩, q) := by
  obtain ⟨outcome, hpeg', hreports⟩ := Recognition.reports_recognize l.grammar
    l.lexicon.caseSensitive l.grammar.statement p.skipTrivia p.skipTrivia.offset
  cases hpeg.deterministic hpeg'
  have hmatched : (l.recognizer p.skipTrivia).matched = true := hreports.matched
  have hposition : (l.recognizer p.skipTrivia).position = q := hreports.position
  have htokens : (l.recognizer p.skipTrivia).tokens = tokens := hreports.tokens
  -- where a match moves on the text is not at its end
  have hatEnd : p.skipTrivia.atEnd = false := by
    obtain ⟨n, hn⟩ := hpeg.reaches
    rw [hn, Position.advance_offset] at hforward
    simp only [Position.atEnd, List.isEmpty_eq_false_iff]
    intro hnil
    simp [hnil] at hforward
  simp [Event.next?, hatEnd, hmatched, hposition, htokens, hforward]

/-- A statement that is the next event moves on from behind the gap in front of it. -/
theorem peg_of_next? {p q : Position} {s : Statement}
    (hnext : Event.next? l.recognizer p = some (.statement s, q)) :
    Peg l.grammar l.lexicon.caseSensitive 0 (.element l.grammar.statement) p.skipTrivia
      (some (q, s.tokens)) ∧ p.skipTrivia.offset < q.offset := by
  obtain ⟨outcome, hpeg, hreports⟩ := Recognition.reports_recognize l.grammar
    l.lexicon.caseSensitive l.grammar.statement p.skipTrivia p.skipTrivia.offset
  unfold Event.next? at hnext
  simp only at hnext
  split at hnext
  · cases hnext
  · split at hnext
    · rename_i hmoves
      cases hnext
      rw [Bool.and_eq_true, decide_eq_true_eq] at hmoves
      obtain ⟨hmatched, hforward⟩ := hmoves
      have hsome : outcome.isSome = true := hreports.matched.symm.trans hmatched
      obtain ⟨⟨q, tokens⟩, rfl⟩ := Option.isSome_iff_exists.mp hsome
      have hposition : (l.recognizer p.skipTrivia).position = q := hreports.position
      have htokens : (l.recognizer p.skipTrivia).tokens = tokens := hreports.tokens
      rw [hposition] at hforward
      rw [hposition, htokens]
      exact ⟨hpeg, hforward⟩
    · cases hnext

section
variable {active : Nat} {emitting : Bool} {p r : Position} {tokens : List Token}

/-- A repetition of statements with rules under way goes on exactly as long as the next event is
    a statement. -/
theorem repeated_cases
    (hpeg : Peg l.grammar l.lexicon.caseSensitive active
      (.element (.repeated l.grammar.statement)) p (some (r, tokens)))
    (hunrefused : Trial.Unrefused l.grammar l.lexicon.caseSensitive
      ⟨active, emitting, .element (.repeated l.grammar.statement), p⟩) :
    (r = p ∧ tokens = [] ∧ ∀ s q, Event.next? l.recognizer p ≠ some (.statement s, q)) ∨
    ∃ q s more, Event.next? l.recognizer p = some (.statement s, q) ∧
      tokens = s.tokens ++ more ∧
      Peg l.grammar l.lexicon.caseSensitive active (.element (.repeated l.grammar.statement)) q
        (some (r, more)) ∧
      Trial.Unrefused l.grammar l.lexicon.caseSensitive
        ⟨active, emitting, .element (.repeated l.grammar.statement), q⟩ := by
  -- what the body does here it does with no rule under way, and behind the gap
  have hafresh : ∀ outcome,
      Peg l.grammar l.lexicon.caseSensitive active (.element l.grammar.statement) p outcome →
      Peg l.grammar l.lexicon.caseSensitive 0 (.element l.grammar.statement) p.skipTrivia
        (p.behindTrivia outcome) :=
    fun _ hbody => (hbody.of_unrefused (hunrefused.tries .round) (Nat.zero_le _)).skipTrivia
  cases hpeg with
  | repeatedStops hbody =>
    refine .inl ⟨rfl, rfl, ?_⟩
    intro s q hnext
    have hfails := hafresh _ hbody
    cases hfails.deterministic (peg_of_next? hnext).1
  | repeatedRests hbody hoffset =>
    rcases hbody.stays_or_passes with ⟨rfl, rfl⟩ | hpasses
    · refine .inl ⟨rfl, rfl, ?_⟩
      intro s q hnext
      have hstays := hafresh _ hbody
      rw [Position.behindTrivia_self] at hstays
      obtain ⟨hpeg, hforward⟩ := peg_of_next? hnext
      have hplace := (Prod.mk.inj (Option.some.inj (hstays.deterministic hpeg))).1
      rw [hplace] at hforward
      omega
    · have hforward := (Position.reaches_skipTrivia p).offset_le
      omega
  | repeatedGoes hbody hoffset hrest =>
    rcases hbody.stays_or_passes with ⟨rfl, _⟩ | hpasses
    · exact absurd rfl hoffset
    · have hmoves := hafresh _ hbody
      rw [Position.behindTrivia_of_passes hpasses] at hmoves
      exact .inr ⟨_, _, _, next?_of_peg hmoves hpasses, rfl, hrest,
        hunrefused.tries (.rounds hbody hoffset)⟩
  | leaf hscanner _ => cases hscanner

/-! ## All rounds -/

/-- A repetition of statements takes the statements before the first mismatch. -/
theorem leads_of_repeated {events : List Event} (hrun : Event.Run l.recognizer p events)
    (hpeg : Peg l.grammar l.lexicon.caseSensitive active
      (.element (.repeated l.grammar.statement)) p (some (r, tokens)))
    (hunrefused : Trial.Unrefused l.grammar l.lexicon.caseSensitive
      ⟨active, emitting, .element (.repeated l.grammar.statement), p⟩) :
    tokens = (Event.leading events).flatMap Statement.tokens ∧
      Event.Leads l.recognizer p ((Event.leading events).map .statement) r := by
  induction hrun generalizing tokens with
  | done hnext =>
    rcases repeated_cases hpeg hunrefused with ⟨rfl, rfl, _⟩ | ⟨q, s, more, hnext', _⟩
    · exact ⟨rfl, .refl _⟩
    · cases hnext.symm.trans hnext'
  | @next p _ event events hnext _ ih =>
    rcases repeated_cases hpeg hunrefused with
      ⟨rfl, rfl, hnone⟩ | ⟨q, s, more, hnext', rfl, hrest, hunrefused'⟩
    · cases event with
      | statement s => exact absurd hnext (hnone s _)
      | mismatch m => exact ⟨rfl, .refl _⟩
    · cases hnext.symm.trans hnext'
      obtain ⟨rfl, hleads⟩ := ih hrest hunrefused'
      exact ⟨rfl, .next hnext hleads⟩

end

/-! ## The start rule -/

/-- A start rule that is one repetition agrees with cutting a text into statements, if no
    reference to a rule is refused while the text is matched by it. -/
theorem wholeAgrees_of_unrefused {name : String} {body : Element} {text : List Char}
    (hstart : l.grammar.rule? l.grammar.start = some ⟨name, [[.repeated body]]⟩)
    (hunrefused : Trial.Unrefused l.grammar l.lexicon.caseSensitive
      ⟨0, true, .element (.rule name l.grammar.start), .start text⟩) :
    l.WholeAgrees text := by
  have hbody : l.grammar.statement = body := by simp [Grammar.statement, hstart]
  subst hbody
  obtain ⟨outcome, hmatch, hreports⟩ := Recognition.reports_recognizeRule l.grammar
    l.lexicon.caseSensitive name l.grammar.start [] text
  have hpeg : Peg l.grammar l.lexicon.caseSensitive 0
      (.element (.rule name l.grammar.start)) (.start text) outcome := hmatch
  have hwhole : Recognition.Reports (l.whole text) (.start text) outcome := hreports
  have hactive : 0 < Recognition.maxRuleDepth := by decide
  -- the one sequence of the rule is the repetition, which does not fail
  have hrepeated : Trial.Unrefused l.grammar l.lexicon.caseSensitive
      ⟨1, true, .element (.repeated l.grammar.statement), .start text⟩ :=
    ((hunrefused.tries (.rule hactive hstart)).tries .alternative).tries .first
  have hrounds : ∃ r tokens, outcome = some (r, tokens) ∧
      Peg l.grammar l.lexicon.caseSensitive 1 (.element (.repeated l.grammar.statement))
        (.start text) (some (r, tokens)) := by
    obtain ⟨_, _, hrule, halternatives⟩ | ⟨hdeep | hmissing, _⟩ := hpeg.body_of_rule
    · cases hstart.symm.trans hrule
      cases halternatives with
      | firstMatches hsequence =>
        cases hsequence with
        | cons hfirst hrest =>
          cases hrest
          rw [List.append_nil]
          exact ⟨_, _, rfl, hfirst⟩
      | firstFails hsequence _ =>
        cases hsequence with
        | consFails hfirst =>
          cases hfirst with
          | leafFails hscanner _ => cases hscanner
        | consFailsLater _ hrest => cases hrest
    · omega
    · cases hstart.symm.trans hmissing
  obtain ⟨r, tokens, rfl, hrounds⟩ := hrounds
  have hrun := l.run_events text
  obtain ⟨htokens, hleads⟩ := leads_of_repeated hrun hrounds hrepeated
  have hposition : (l.whole text).position = r := hwhole.position
  constructor
  · exact hwhole.matched
  · rw [← htokens]
    exact hwhole.tokens
  · rw [hposition]
    exact hleads

end Language

/-! ## Compositor scripts -/

namespace Script

/-- Every production refers to later ones only. -/
theorem refersForward_grammar : grammar.RefersForward := by
  have hforward : ∀ production ∈ Production.all,
      ∀ id ∈ Element.alternativesReferences production.alternatives,
        production.id < id ∧ id < grammar.rules.length := by
    decide
  have hid : ∀ id (h : id < Production.all.length), Production.all[id].id = id := by
    decide
  intro id r hrule id' hid'
  obtain ⟨production, hproduction, rfl⟩ := Option.map_eq_some_iff.mp
    (List.getElem?_map.symm.trans hrule)
  obtain ⟨hlt, rfl⟩ := List.getElem?_eq_some_iff.mp hproduction
  have hlater := hforward _ (List.getElem_mem hlt) id' hid'
  rwa [hid id hlt] at hlater

/-- No reference to a rule is refused while a script is matched. -/
theorem unrefused_start (caseSensitive : Bool) (text : List Char) :
    Trial.Unrefused grammar caseSensitive
      ⟨0, true, .element (.rule Production.script.name grammar.start), .start text⟩ := by
  have hlength : grammar.rules.length ≤ Recognition.maxRuleDepth := by decide
  refine Trial.unrefused_of_refersForward refersForward_grammar hlength ?_
  intro id hid
  rw [List.mem_singleton.mp hid]
  exact ⟨Nat.zero_le _, by decide⟩

end Script

namespace Language

/-- Matching the start rule agrees with cutting a text into statements, for every language whose
    start rule is one repetition and every text for which no reference to a rule is refused
    while the start rule is matched.  Cutting has one rule less under way, so nothing has to be
    said of it.  For the language of compositor scripts they agree on every text. -/
theorem whole_agrees :
    (∀ {α : Type} (l : Language α) (name : String) (body : Element) (text : List Char),
      l.grammar.rule? l.grammar.start = some ⟨name, [[.repeated body]]⟩ →
      Trial.Unrefused l.grammar l.lexicon.caseSensitive
        ⟨0, true, .element (.rule name l.grammar.start), .start text⟩ →
      l.WholeAgrees text) ∧
    ∀ caseSensitive text, (Script.language caseSensitive).WholeAgrees text := by
  constructor
  · intro α l name body text hstart hunrefused
    exact wholeAgrees_of_unrefused hstart hunrefused
  · intro caseSensitive text
    exact wholeAgrees_of_unrefused (Script.grammar_rule? .script)
      (Script.unrefused_start caseSensitive text)

/-- Two statements, a word that begins none, and a statement behind it. -/
theorem whole_agrees_mismatch :
    let l := Script.language true
    let text := "only_initial on\n\x7d\noops\n\x7d".toList
    l.WholeAgrees text ∧ (l.whole text).position.offset = 17 ∧ (l.events text).length = 4 := by
  intro l text
  have hagrees : l.WholeAgrees text :=
    whole_agrees.1 l _ _ text (Script.grammar_rule? .script) (Script.unrefused_start true text)
  have hcounts : (l.whole text).position.offset = 17 ∧ (l.events text).length = 4 := by
    decide +kernel
  exact ⟨hagrees, hcounts⟩

end Language
end Compositing
