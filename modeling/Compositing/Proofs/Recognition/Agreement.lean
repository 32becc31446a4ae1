import Compositing.Proofs.Recognition.Peg
import Compositing.Proofs.Recognition.Rounds

/-! # Recognition is parsing by expressions

    An attempt carries the tokens emitted so far and whether tokens are
    emitted at all, counts the characters a repetition may still use up and
    the rules that may still be entered.  None of this shows in its end: an
    attempt ends as the phrase it tries does, and has put that phrase's tokens,
    latest first, before those it was given. -/

namespace Compositing.Recognition

/-! ## What an attempt means -/

/-- An attempt at a phrase from `p` on ends as the phrase does, and adds the phrase's tokens if
    it emits any. -/
def Attempt.Means (g : Grammar) (caseSensitive : Bool) (active : Nat) (phrase : Phrase)
    (emitting : Bool) (p : Progress) : Attempt → Prop
  | .matched q =>
    ∃ tokens, Peg g caseSensitive active phrase p.position (some (q.position, tokens)) ∧
      q.tokens = (if emitting then tokens.reverse else []) ++ p.tokens
  | .failed _ => Peg g caseSensitive active phrase p.position none

section
variable {g : Grammar} {caseSensitive : Bool} {active : Nat}

/-- A leaf attempt accepts what its scanner accepts after white space and comments. -/
theorem leaf_means {e : Element} {scan : List Char → Option (Nat × Option Token.Kind)}
    (hscanner : e.scanner? caseSensitive = some scan) (emitting : Bool) (p : Progress) :
    (leaf emitting scan p).Means g caseSensitive active (.element e) emitting p := by
  unfold leaf
  cases hscan : scan p.position.skipTrivia.rest with
  | none =>
    simp only [hscan]
    exact Peg.leafFails hscanner hscan
  | some result =>
    obtain ⟨n, kind?⟩ := result
    simp only [hscan]
    refine ⟨_, .leaf hscanner hscan, ?_⟩
    cases kind? with
    | none => cases emitting <;> rfl
    | some kind => cases emitting <;> rfl

/-- An attempt means every phrase that has the outcomes of what it means. -/
theorem Attempt.Means.imp {attempt : Attempt} {active' : Nat} {phrase phrase' : Phrase}
    {emitting : Bool} {p : Progress}
    (h : attempt.Means g caseSensitive active phrase emitting p)
    (hpeg : ∀ outcome, Peg g caseSensitive active phrase p.position outcome →
      Peg g caseSensitive active' phrase' p.position outcome) :
    attempt.Means g caseSensitive active' phrase' emitting p := by
  cases attempt with
  | failed furthest => exact hpeg _ h
  | matched q =>
    obtain ⟨tokens, hmatched, htokens⟩ := h
    exact ⟨tokens, hpeg _ hmatched, htokens⟩

section
variable {body : Element} {emitting : Bool} {p q r : Progress}

/-- The last round of a repetition fails. -/
theorem repeated_of_failed {furthest : Nat} (furthest' : Nat)
    (h : (Attempt.failed furthest).Means g caseSensitive active (.element body) emitting p) :
    (Attempt.matched { p with furthest := furthest' }).Means g caseSensitive active
      (.element (.repeated body)) emitting p :=
  ⟨[], .repeatedStops h, by cases emitting <;> rfl⟩

/-- The last round of a repetition does not advance. -/
theorem repeated_of_rests
    (h : (Attempt.matched q).Means g caseSensitive active (.element body) emitting p)
    (hoffset : q.position.offset = p.position.offset) :
    (Attempt.matched q).Means g caseSensitive active (.element (.repeated body)) emitting p := by
  obtain ⟨tokens, hpeg, htokens⟩ := h
  exact ⟨tokens, .repeatedRests hpeg hoffset, htokens⟩

/-- A round of a repetition advances, and others follow. -/
theorem repeated_of_goes
    (h : (Attempt.matched q).Means g caseSensitive active (.element body) emitting p)
    (hoffset : q.position.offset ≠ p.position.offset)
    (hrest : (Attempt.matched r).Means g caseSensitive active (.element (.repeated body))
      emitting q) :
    (Attempt.matched r).Means g caseSensitive active (.element (.repeated body)) emitting p := by
  obtain ⟨tokens, hpeg, htokens⟩ := h
  obtain ⟨more, hmore, hmoretokens⟩ := hrest
  refine ⟨tokens ++ more, .repeatedGoes hpeg hoffset hmore, ?_⟩
  rw [hmoretokens, htokens]
  cases emitting <;> simp

end

/-- An attempt that means a phrase leads forward. -/
theorem leadsForward_of_means {phrase : Phrase} {emitting : Bool} {attempt : Progress → Attempt}
    (hmeans : ∀ p, (attempt p).Means g caseSensitive active phrase emitting p) :
    LeadsForward attempt := by
  intro p q hmatched
  have hp := hmeans p
  rw [hmatched] at hp
  obtain ⟨tokens, hpeg, _⟩ := hp
  exact hpeg.reaches

/-- The rounds of a repetition mean the repetition of the phrase that each of them means. -/
theorem Rounds.means {body : Element} {emitting : Bool} {attempt : Progress → Attempt}
    (hbody : ∀ p, (attempt p).Means g caseSensitive active (.element body) emitting p)
    {p q : Progress} {n : Nat} (h : Rounds attempt p n q) :
    (Attempt.matched q).Means g caseSensitive active (.element (.repeated body)) emitting p := by
  induction h with
  | @fails p furthest hround =>
    have hp := hbody p
    rw [hround] at hp
    exact repeated_of_failed furthest hp
  | @stays p q hround hoffset =>
    have hp := hbody p
    rw [hround] at hp
    exact repeated_of_rests hp hoffset
  | @goes p q r n hround hoffset _ ih =>
    have hp := hbody p
    rw [hround] at hp
    exact repeated_of_goes hp hoffset ih

/-- A repetition of an attempt, with room for the characters ahead, is a repetition of the
    phrase. -/
theorem iterate_means {body : Element} {emitting : Bool} {attempt : Progress → Attempt}
    (hbody : ∀ p, (attempt p).Means g caseSensitive active (.element body) emitting p)
    (room : List Char) (p : Progress) (hroom : p.position.rest.length ≤ room.length) :
    (Attempt.matched (iterate attempt room p)).Means g caseSensitive active
      (.element (.repeated body)) emitting p := by
  obtain ⟨n, hrounds, _⟩ := exists_rounds (leadsForward_of_means hbody) room p hroom
  exact hrounds.means hbody

/-! ## Elements -/

/-- What is called for a rule tries that rule. -/
def CallMeans (g : Grammar) (caseSensitive : Bool) (active : Nat)
    (call : Bool → Nat → Progress → Attempt) : Prop :=
  ∀ emitting name id p,
    (call emitting id p).Means g caseSensitive active (.element (.rule name id)) emitting p

variable {call : Bool → Nat → Progress → Attempt}

mutual

/-- An attempt at an element. -/
theorem element_means (hcall : CallMeans g caseSensitive active call) (e : Element)
    (emitting : Bool) (p : Progress) :
    (element caseSensitive call emitting e p).Means g caseSensitive active (.element e)
      emitting p := by
  cases e with
  | terminal text emits token => exact leaf_means (e := .terminal text emits token) rfl emitting p
  | number name => exact leaf_means (e := .number name) rfl emitting p
  | label name => exact leaf_means (e := .label name) rfl emitting p
  | run chars negated => exact leaf_means (e := .run chars negated) rfl emitting p
  | rule name id => exact hcall emitting name id p
  | repeated body =>
    exact iterate_means (fun p => element_means hcall body emitting p) _ p (Nat.le_refl _)
  | optional body =>
    have hbody := element_means hcall body emitting p
    unfold element
    cases hattempt : element caseSensitive call emitting body p with
    | matched q =>
      rw [hattempt] at hbody
      obtain ⟨tokens, hpeg, htokens⟩ := hbody
      exact ⟨tokens, .optionalTaken hpeg, htokens⟩
    | failed furthest =>
      rw [hattempt] at hbody
      exact ⟨[], .optionalLeft hbody, by cases emitting <;> rfl⟩
  | notAhead body =>
    have hbody := element_means hcall body false p
    unfold element
    cases hattempt : element caseSensitive call false body p with
    | matched q =>
      rw [hattempt] at hbody
      obtain ⟨tokens, hpeg, _⟩ := hbody
      exact .notAheadFails hpeg
    | failed furthest =>
      rw [hattempt] at hbody
      exact ⟨[], .notAhead hbody, by cases emitting <;> rfl⟩
  | choice sequences =>
    exact (alternatives_means hcall sequences emitting p).imp fun _ => .choice

/-- An attempt at a sequence. -/
theorem sequence_means (hcall : CallMeans g caseSensitive active call)
    (elements : List Element) (emitting : Bool) (p : Progress) :
    (sequence caseSensitive call emitting elements p).Means g caseSensitive active
      (.sequence elements) emitting p := by
  cases elements with
  | nil => exact ⟨[], .nil, by cases emitting <;> rfl⟩
  | cons first rest =>
    have hfirst := element_means hcall first emitting p
    unfold sequence
    cases hattempt : element caseSensitive call emitting first p with
    | failed furthest =>
      rw [hattempt] at hfirst
      exact .consFails hfirst
    | matched q =>
      rw [hattempt] at hfirst
      obtain ⟨tokens, hpeg, htokens⟩ := hfirst
      have hrest := sequence_means hcall rest emitting q
      cases hattempt' : sequence caseSensitive call emitting rest q with
      | failed furthest =>
        rw [hattempt'] at hrest
        simp only [hattempt']
        exact .consFailsLater hpeg hrest
      | matched r =>
        rw [hattempt'] at hrest
        obtain ⟨more, hmore, hmoretokens⟩ := hrest
        simp only [hattempt']
        refine ⟨tokens ++ more, .cons hpeg hmore, ?_⟩
        rw [hmoretokens, htokens]
        cases emitting <;> simp

/-- An attempt at alternatives. -/
theorem alternatives_means (hcall : CallMeans g caseSensitive active call)
    (sequences : List (List Element)) (emitting : Bool) (p : Progress) :
    (alternatives caseSensitive call emitting sequences p).Means g caseSensitive active
      (.alternatives sequences) emitting p := by
  cases sequences with
  | nil => exact .noAlternative
  | cons first rest =>
    have hfirst := sequence_means hcall first emitting p
    unfold alternatives
    cases hattempt : sequence caseSensitive call emitting first p with
    | matched q =>
      rw [hattempt] at hfirst
      obtain ⟨tokens, hpeg, htokens⟩ := hfirst
      exact ⟨tokens, .firstMatches hpeg, htokens⟩
    | failed furthest =>
      rw [hattempt] at hfirst
      have hrest := alternatives_means hcall rest emitting { p with furthest }
      cases hattempt' : alternatives caseSensitive call emitting rest { p with furthest } with
      | failed furthest' =>
        rw [hattempt'] at hrest
        simp only [hattempt']
        exact .firstFails hfirst hrest
      | matched q =>
        rw [hattempt'] at hrest
        obtain ⟨tokens, hpeg, htokens⟩ := hrest
        simp only [hattempt']
        exact ⟨tokens, .firstFails hfirst hpeg, htokens⟩

end

/-! ## Rules -/

/-- With as many rules under way as leave room for `depth` more, trying a rule means it. -/
theorem rule_means (depth : Nat) (active : Nat) (hdepth : depth + active = maxRuleDepth) :
    CallMeans g caseSensitive active (rule g caseSensitive depth) := by
  induction depth generalizing active with
  | zero =>
    intro emitting name id p
    exact Peg.ruleTooDeep (by omega)
  | succ depth ih =>
    intro emitting name id p
    have hactive : active < maxRuleDepth := by omega
    unfold rule
    cases hrule : g.rule? id with
    | none =>
      exact Peg.ruleMissing hactive hrule
    | some r =>
      have hbody := alternatives_means (ih (active + 1) (by omega)) r.alternatives emitting p
      exact hbody.imp fun _ => .rule hactive hrule

end

/-! ## Outcomes -/

/-- A recognition at a place reports an outcome of a phrase: where there is none, the place
    itself and no tokens. -/
structure Reports (r : Recognition) (place : Position)
    (outcome : Option (Position × List Token)) : Prop where
  matched : r.matched = outcome.isSome
  position : r.position = (outcome.map (·.1)).getD place
  tokens : r.tokens = (outcome.map (·.2)).getD []

/-- An attempt that means a phrase reports the outcome of the phrase. -/
theorem exists_reports {g : Grammar} {caseSensitive : Bool} {active : Nat} {phrase : Phrase}
    {attempt : Progress → Attempt} {place : Position} {startingAt : Nat}
    (h : (attempt ⟨place, [], startingAt⟩).Means g caseSensitive active phrase true
      ⟨place, [], startingAt⟩) :
    ∃ outcome, Peg g caseSensitive active phrase place outcome ∧
      Reports (ofAttempt attempt place startingAt) place outcome := by
  unfold ofAttempt
  cases hattempt : attempt ⟨place, [], startingAt⟩ with
  | matched q =>
    rw [hattempt] at h
    obtain ⟨tokens, hpeg, htokens⟩ := h
    refine ⟨_, hpeg, rfl, rfl, ?_⟩
    simp [htokens]
  | failed furthest =>
    rw [hattempt] at h
    exact ⟨none, h, rfl, rfl, rfl⟩

/-- Matching an element reports an outcome that it has with no rule under way. -/
theorem reports_recognize (g : Grammar) (caseSensitive : Bool) (e : Element) (place : Position)
    (startingAt : Nat) :
    ∃ outcome, Peg g caseSensitive 0 (.element e) place outcome ∧
      Reports (g.recognize caseSensitive e place startingAt) place outcome :=
  exists_reports (element_means (rule_means maxRuleDepth 0 rfl) e true _)

/-- Matching a rule, by whatever name, reports an outcome of a reference to it with no rule under
    way. -/
theorem reports_recognizeRule (g : Grammar) (caseSensitive : Bool) (name : String) (id : Nat)
    (before after : List Char) :
    ∃ outcome, Peg g caseSensitive 0 (.element (.rule name id))
        ⟨after, Text.byteLength before, 1 + Text.newlines before⟩ outcome ∧
      Reports (g.recognizeRuleAt caseSensitive id (before ++ after) (Text.byteLength before))
        ⟨after, Text.byteLength before, 1 + Text.newlines before⟩ outcome := by
  unfold Grammar.recognizeRuleAt
  simp only [Position.start_advanceBytes]
  exact exists_reports (rule_means maxRuleDepth 0 rfl true name id _)

/-- An attempt that means a phrase reports the one outcome that the phrase has. -/
theorem exists_unique_reports {g : Grammar} {caseSensitive : Bool} {active : Nat}
    {phrase : Phrase} {attempt : Progress → Attempt} {place : Position} {startingAt : Nat}
    (h : (attempt ⟨place, [], startingAt⟩).Means g caseSensitive active phrase true
      ⟨place, [], startingAt⟩) :
    ∃ outcome, (∀ other, Peg g caseSensitive active phrase place other ↔ other = outcome) ∧
      Reports (ofAttempt attempt place startingAt) place outcome := by
  obtain ⟨outcome, hpeg, hreports⟩ := exists_reports h
  refine ⟨outcome, fun other => ⟨fun hother => hother.deterministic hpeg, ?_⟩, hreports⟩
  rintro rfl
  exact hpeg

/-- Matching an element at a character boundary reports the one outcome that the element has
    there. -/
theorem exists_unique_recognizeAt (g : Grammar) (caseSensitive : Bool) (e : Element)
    (before after : List Char) (line : Nat) :
    ∃ outcome,
      (∀ other, Peg g caseSensitive 0 (.element e) ⟨after, Text.byteLength before, line⟩ other ↔
        other = outcome) ∧
      Reports (g.recognizeAt caseSensitive e (before ++ after) (Text.byteLength before) line)
        ⟨after, Text.byteLength before, line⟩ outcome := by
  unfold Grammar.recognizeAt Grammar.recognize
  rw [Position.seek_append]
  exact exists_unique_reports (element_means (rule_means maxRuleDepth 0 rfl) e true _)

/-- Matching a rule there reports the one outcome of a reference to it. -/
theorem exists_unique_recognizeRuleAt (g : Grammar) (caseSensitive : Bool) (name : String)
    (id : Nat) (before after : List Char) :
    ∃ outcome,
      (∀ other, Peg g caseSensitive 0 (.element (.rule name id))
          ⟨after, Text.byteLength before, 1 + Text.newlines before⟩ other ↔ other = outcome) ∧
      Reports (g.recognizeRuleAt caseSensitive id (before ++ after) (Text.byteLength before))
        ⟨after, Text.byteLength before, 1 + Text.newlines before⟩ outcome := by
  unfold Grammar.recognizeRuleAt
  simp only [Position.start_advanceBytes]
  exact exists_unique_reports (rule_means maxRuleDepth 0 rfl true name id _)

end Compositing.Recognition
