import Compositing.Proofs.Recognition.Agreement
import Compositing.Proofs.Recognition.Parts
import Compositing.Proofs.Recognition.Trivia
import Mathlib.Data.Set.Finite.Lattice

/-! # Matching ends

    Nothing in a grammar bounds a match: a rule may refer to itself at the place
    where it begins, and the body of a repetition may take nothing.  What
    bounds it is how many rules may be under way, and how much of the text is
    left.

    Whatever a trial tries has fewer rules left to enter, or as many and a
    smaller phrase, or the phrase that it has itself with less text ahead.  So
    there is no endless row of trials one within the other, and as a trial tries
    only a few parts itself, there are only finitely many in a match. -/

namespace Compositing

namespace Recognition

/-! ## Attempts at phrases -/

/-- An attempt at a phrase with rules under way, which leave room for those that may still be
    entered. -/
def attempt (g : Grammar) (caseSensitive : Bool) (active : Nat) (emitting : Bool) :
    Phrase → Progress → Attempt
  | .element e => element caseSensitive (rule g caseSensitive (maxRuleDepth - active)) emitting e
  | .sequence elements =>
    sequence caseSensitive (rule g caseSensitive (maxRuleDepth - active)) emitting elements
  | .alternatives sequences =>
    alternatives caseSensitive (rule g caseSensitive (maxRuleDepth - active)) emitting sequences

/-- What is called for a rule means it, however many rules are under way. -/
theorem callMeans_rule (g : Grammar) (caseSensitive : Bool) (active : Nat) :
    CallMeans g caseSensitive active (rule g caseSensitive (maxRuleDepth - active)) := by
  by_cases hactive : active ≤ maxRuleDepth
  · exact rule_means _ active (by omega)
  · -- there is no room for a rule
    have hnone : maxRuleDepth - active = 0 := by omega
    rw [hnone]
    intro emitting name id p
    exact Peg.ruleTooDeep (by omega)

/-- An attempt at a phrase means the phrase. -/
theorem attempt_means (g : Grammar) (caseSensitive : Bool) (active : Nat) (emitting : Bool)
    (phrase : Phrase) (p : Progress) :
    (attempt g caseSensitive active emitting phrase p).Means g caseSensitive active phrase
      emitting p := by
  have hcall := callMeans_rule g caseSensitive active
  cases phrase with
  | element e => exact element_means hcall e emitting p
  | sequence elements => exact sequence_means hcall elements emitting p
  | alternatives sequences => exact alternatives_means hcall sequences emitting p

end Recognition

/-- Every phrase has an outcome, however many rules are under way. -/
theorem Peg.exists_outcome (g : Grammar) (caseSensitive : Bool) (active : Nat) (phrase : Phrase)
    (p : Position) : ∃ outcome, Peg g caseSensitive active phrase p outcome := by
  have hmeans := Recognition.attempt_means g caseSensitive active true phrase ⟨p, [], p.offset⟩
  cases hattempt : Recognition.attempt g caseSensitive active true phrase ⟨p, [], p.offset⟩ with
  | matched q =>
    rw [hattempt] at hmeans
    obtain ⟨tokens, hpeg, _⟩ := hmeans
    exact ⟨_, hpeg⟩
  | failed furthest =>
    rw [hattempt] at hmeans
    exact ⟨none, hmeans⟩

namespace Trial
variable {g : Grammar} {caseSensitive : Bool}

/-! ## No endless descent -/

/-- How many rules may still be entered, how large the phrase is, and how much text is ahead. -/
noncomputable def measure (t : Trial) : Nat × Nat × Nat :=
  (Recognition.maxRuleDepth - t.active, sizeOf t.phrase, t.position.rest.length)

/-- One trial is below another: the first of the three numbers in which they differ is
    smaller. -/
def IsBelow (t' t : Trial) : Prop :=
  Prod.Lex (· < ·) (Prod.Lex (· < ·) (· < ·)) t'.measure t.measure

theorem isBelow_of_size {t' t : Trial} (hactive : t'.active = t.active)
    (hsize : sizeOf t'.phrase < sizeOf t.phrase) : t'.IsBelow t := by
  unfold IsBelow measure
  rw [hactive]
  exact .right _ (.left _ _ hsize)

/-- A part is below its trial. -/
theorem Tries.isBelow {t t' : Trial} (htries : Tries g caseSensitive t t') : t'.IsBelow t := by
  cases htries with
  | @rule active _ _ _ _ _ hactive _ =>
    -- the alternatives of a rule may be large, but one rule more is under way
    apply Prod.Lex.left
    show Recognition.maxRuleDepth - (active + 1) < Recognition.maxRuleDepth - active
    omega
  | rounds hbody hoffset =>
    -- the phrase is the same, but a round has taken something
    exact .right _ (.right _ (hbody.reaches.length_lt hoffset))
  | round | optional | notAhead | choice | first | alternative | following _ | others _ =>
    apply isBelow_of_size
    · rfl
    · simp +arith

/-- So no row of trials, each a part of the one before, goes on for ever. -/
theorem wellFounded_tries (g : Grammar) (caseSensitive : Bool) :
    WellFounded fun t' t : Trial => Tries g caseSensitive t t' := by
  have hbelow : WellFounded IsBelow :=
    InvImage.wf measure (Prod.lex Nat.lt_wfRel (Prod.lex Nat.lt_wfRel Nat.lt_wfRel)).wf
  exact Subrelation.wf Tries.isBelow hbelow

/-! ## Finitely many trials -/

/-- The parts that a trial tries itself can be listed. -/
theorem exists_parts (g : Grammar) (caseSensitive : Bool) (t : Trial) :
    ∃ parts, HasParts g caseSensitive t parts := by
  obtain ⟨active, emitting, phrase, p⟩ := t
  cases phrase with
  | element e =>
    cases e with
    | terminal text emits token => exact ⟨_, hasParts_leaf rfl⟩
    | number name => exact ⟨_, hasParts_leaf rfl⟩
    | label name => exact ⟨_, hasParts_leaf rfl⟩
    | run chars negated => exact ⟨_, hasParts_leaf rfl⟩
    | rule name id =>
      by_cases hactive : Recognition.maxRuleDepth ≤ active
      · exact ⟨_, hasParts_refused (.inl hactive)⟩
      · cases hrule : g.rule? id with
        | none => exact ⟨_, hasParts_refused (.inr hrule)⟩
        | some r => exact ⟨_, hasParts_rule (by omega) hrule⟩
    | repeated body =>
      obtain ⟨outcome, hbody⟩ := Peg.exists_outcome g caseSensitive active (.element body) p
      cases outcome with
      | none => exact ⟨_, hasParts_lastRound hbody nofun⟩
      | some result =>
        by_cases hoffset : result.1.offset = p.offset
        · refine ⟨_, hasParts_lastRound hbody ?_⟩
          intro result' hresult'
          rw [← Option.some.inj hresult']
          exact hoffset
        · exact ⟨_, hasParts_rounds hbody hoffset⟩
    | optional body => exact ⟨_, hasParts_optional⟩
    | notAhead body => exact ⟨_, hasParts_notAhead⟩
    | choice sequences => exact ⟨_, hasParts_choice⟩
  | sequence elements =>
    cases elements with
    | nil => exact ⟨_, hasParts_nil⟩
    | cons first rest =>
      obtain ⟨outcome, hfirst⟩ := Peg.exists_outcome g caseSensitive active (.element first) p
      cases outcome with
      | none => exact ⟨_, hasParts_failing hfirst⟩
      | some result => exact ⟨_, hasParts_following hfirst⟩
  | alternatives sequences =>
    cases sequences with
    | nil => exact ⟨_, hasParts_noAlternative⟩
    | cons first rest =>
      obtain ⟨outcome, hfirst⟩ := Peg.exists_outcome g caseSensitive active (.sequence first) p
      cases outcome with
      | none => exact ⟨_, hasParts_others hfirst⟩
      | some result => exact ⟨_, hasParts_matching hfirst⟩

/-- Only finitely many trials are made in the course of one. -/
theorem finite_course (g : Grammar) (caseSensitive : Bool) (t : Trial) :
    {t' | Relation.ReflTransGen (Tries g caseSensitive) t t'}.Finite := by
  induction t using (wellFounded_tries g caseSensitive).induction with
  | _ t ih =>
    obtain ⟨parts, hparts⟩ := exists_parts g caseSensitive t
    -- the trials in the course of the parts, and the trial itself
    have hcourses : (⋃ part ∈ {part | part ∈ parts},
        {t' | Relation.ReflTransGen (Tries g caseSensitive) part t'}).Finite := by
      apply parts.finite_toSet.biUnion
      intro part hpart
      exact ih part ((hparts part).mpr hpart)
    apply (hcourses.insert t).subset
    intro t' hreach
    rcases hreach.cases_head with hself | ⟨part, htries, hreach⟩
    · exact .inl hself.symm
    · exact .inr (Set.mem_biUnion ((hparts part).mp htries) hreach)

/-! ## Rules under way -/

/-- If no more rules are under way than may be, then so it stays. -/
theorem active_le {t t' : Trial}
    (hreach : Relation.ReflTransGen (Tries g caseSensitive) t t')
    (hactive : t.active ≤ Recognition.maxRuleDepth) :
    t'.active ≤ Recognition.maxRuleDepth := by
  induction hreach with
  | refl => exact hactive
  | tail _ htries ih =>
    cases htries with
    | rule hactive _ => exact hactive
    | _ => exact ih

end Trial

/-! ## Ends of attempts -/

namespace Recognition
variable {g : Grammar} {caseSensitive : Bool} {active : Nat} {emitting : Bool}

/-- An attempt advances, or leads nowhere and emits nothing. -/
def Attempt.AdvancesOrRests (p : Progress) : Attempt → Prop
  | .matched q =>
    p.position.offset < q.position.offset ∨ (q.position = p.position ∧ q.tokens = p.tokens)
  | .failed _ => True

/-- Every attempt advances or rests. -/
theorem attempt_advancesOrRests (phrase : Phrase) (p : Progress) :
    (attempt g caseSensitive active emitting phrase p).AdvancesOrRests p := by
  have hmeans := attempt_means g caseSensitive active emitting phrase p
  cases hattempt : attempt g caseSensitive active emitting phrase p with
  | failed furthest => trivial
  | matched q =>
    rw [hattempt] at hmeans
    obtain ⟨tokens, hpeg, htokens⟩ := hmeans
    rcases hpeg.stays_or_passes with ⟨hstays, hnone⟩ | hpasses
    · refine .inr ⟨hstays, ?_⟩
      rw [htokens, hnone]
      cases emitting <;> rfl
    · have hforward := (Position.reaches_skipTrivia p.position).offset_le
      exact .inl (by omega)

/-- A text has no more characters than bytes. -/
theorem length_le_byteLength (text : List Char) : text.length ≤ Text.byteLength text := by
  induction text with
  | nil => exact Nat.le_refl 0
  | cons c text ih =>
    have hsize := c.utf8Size_pos
    rw [List.length_cons, Text.byteLength_cons]
    omega

/-- An attempt at a repetition is its rounds, repeated without a bound.  They end in one way, and
    at most one more is begun than bytes are ahead. -/
theorem attempt_repeated (body : Element) (p : Progress) :
    ∃ n q, attempt g caseSensitive active emitting (.element (.repeated body)) p = .matched q ∧
      (∀ n' q', Rounds (attempt g caseSensitive active emitting (.element body)) p n' q' ↔
        n' = n ∧ q' = q) ∧
      n ≤ Text.byteLength p.position.rest + 1 := by
  have hforward : LeadsForward (attempt g caseSensitive active emitting (.element body)) :=
    leadsForward_of_means (attempt_means g caseSensitive active emitting (.element body))
  obtain ⟨n, hrounds, hn⟩ := exists_rounds hforward p.position.rest p (Nat.le_refl _)
  have hbytes := length_le_byteLength p.position.rest
  refine ⟨n, _, rfl, ?_, by omega⟩
  intro n' q'
  constructor
  · exact hrounds.unique
  · intro hsame
    rw [hsame.1, hsame.2]
    exact hrounds

end Recognition

/-! ## Termination -/

/-- A match that begins with a trial ends: no row of trials one within the other goes on for ever,
    and there are finitely many. -/
structure Trial.Ends (g : Grammar) (caseSensitive : Bool) (root : Trial) : Prop where
  descent : Acc (fun t' t => Tries g caseSensitive t t') root
  finite : {t | Relation.ReflTransGen (Tries g caseSensitive) root t}.Finite
  /-- No more rules are under way than may be. -/
  active : ∀ t, Relation.ReflTransGen (Tries g caseSensitive) root t →
    t.active ≤ Recognition.maxRuleDepth
  /-- What is tried within the match ends as its phrase does. -/
  means : ∀ t, Relation.ReflTransGen (Tries g caseSensitive) root t → ∀ p : Recognition.Progress,
    p.position = t.position →
    (Recognition.attempt g caseSensitive t.active t.emitting t.phrase p).Means g caseSensitive
      t.active t.phrase t.emitting p
  /-- It advances, or rests without a token. -/
  nested : ∀ t, Relation.ReflTransGen (Tries g caseSensitive) root t → ∀ p : Recognition.Progress,
    p.position = t.position →
    (Recognition.attempt g caseSensitive t.active t.emitting t.phrase p).AdvancesOrRests p
  /-- A repetition within the match ends after at most one round more than bytes are ahead. -/
  rounds : ∀ t, Relation.ReflTransGen (Tries g caseSensitive) root t → ∀ body,
    t.phrase = .element (.repeated body) → ∀ p : Recognition.Progress, p.position = t.position →
    ∃ n q, Recognition.attempt g caseSensitive t.active t.emitting t.phrase p = .matched q ∧
      (∀ n' q', Recognition.Rounds
        (Recognition.attempt g caseSensitive t.active t.emitting (.element body)) p n' q' ↔
          n' = n ∧ q' = q) ∧
      n ≤ Text.byteLength t.position.rest + 1

/-- A match ends if it begins with no more rules under way than may be. -/
theorem Trial.ends {g : Grammar} {caseSensitive : Bool} {root : Trial}
    (hactive : root.active ≤ Recognition.maxRuleDepth) : root.Ends g caseSensitive where
  descent := (wellFounded_tries g caseSensitive).apply root
  finite := finite_course g caseSensitive root
  active _ hreach := active_le hreach hactive
  means t _ p _ := Recognition.attempt_means g caseSensitive t.active t.emitting t.phrase p
  nested t _ p _ := Recognition.attempt_advancesOrRests t.phrase p
  rounds t _ body hphrase p hplace := by
    rw [hphrase, ← hplace]
    exact Recognition.attempt_repeated body p

/-- Matching ends, for every grammar and at every character boundary of a text, whether an
    element is matched or a rule. -/
theorem Recognition.matching_ends (g : Grammar) (caseSensitive : Bool)
    (before after : List Char) :
    (∀ (e : Element) (line : Nat),
      Trial.Ends g caseSensitive ⟨0, true, .element e, ⟨after, Text.byteLength before, line⟩⟩ ∧
      ∃ outcome,
        (∀ other, Peg g caseSensitive 0 (.element e) ⟨after, Text.byteLength before, line⟩ other ↔
          other = outcome) ∧
        Reports (g.recognizeAt caseSensitive e (before ++ after) (Text.byteLength before) line)
          ⟨after, Text.byteLength before, line⟩ outcome) ∧
    (∀ (name : String) (id : Nat),
      Trial.Ends g caseSensitive ⟨0, true, .element (.rule name id),
        ⟨after, Text.byteLength before, 1 + Text.newlines before⟩⟩ ∧
      ∃ outcome,
        (∀ other, Peg g caseSensitive 0 (.element (.rule name id))
          ⟨after, Text.byteLength before, 1 + Text.newlines before⟩ other ↔ other = outcome) ∧
        Reports (g.recognizeRuleAt caseSensitive id (before ++ after) (Text.byteLength before))
          ⟨after, Text.byteLength before, 1 + Text.newlines before⟩ outcome) := by
  constructor
  · intro e line
    exact ⟨Trial.ends (Nat.zero_le _),
      exists_unique_recognizeAt g caseSensitive e before after line⟩
  · intro name id
    exact ⟨Trial.ends (Nat.zero_le _),
      exists_unique_recognizeRuleAt g caseSensitive name id before after⟩

end Compositing
