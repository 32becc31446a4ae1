import Compositing.Proofs.Recognition.Lines

/-! # Matches that last

    When a text goes on, a leaf is scanned as before if there was something
    for it to look at, and it may be scanned anew where only an ending was
    left.  So a match lasts if what failed on the way to it failed in front of
    something.  The lemmas follow the forms of phrases. -/

namespace Compositing

/-- Something is left, behind white space and comments. -/
def Position.Ahead (p : Position) : Prop := ¬ Text.IsEnding p.rest

section
variable (g : Grammar) (caseSensitive : Bool)

/-- Matches of the phrase that end where `ends` holds last when the text goes on. -/
def Lasts (ends : Position → Prop) (phrase : Phrase) : Prop :=
  ∀ ⦃active p q tokens⦄ more, Peg g caseSensitive active phrase p (some (q, tokens)) → ends q →
    Peg g caseSensitive active phrase (p.continued more) (some (q.continued more, tokens))

/-- Matches of the phrase have something in front of them. -/
def Begins (phrase : Phrase) : Prop :=
  ∀ ⦃active p q tokens⦄, Peg g caseSensitive active phrase p (some (q, tokens)) → p.Ahead

/-- The phrase that fails at a place fails there when the text goes on with `more`. -/
def StaysFailed (more : List Char) (active : Nat) (phrase : Phrase) (p : Position) : Prop :=
  Peg g caseSensitive active phrase p none →
    Peg g caseSensitive active phrase (p.continued more) none

/-- The phrase looks at something, and has the same outcome when the text goes on. -/
structure Steady (phrase : Phrase) : Prop where
  lasts : Lasts g caseSensitive (fun _ => True) phrase
  begins : Begins g caseSensitive phrase
  stays : ∀ ⦃more active p⦄, p.Ahead → StaysFailed g caseSensitive more active phrase p

end

variable {g : Grammar} {caseSensitive : Bool} {ends ends' : Position → Prop} {more : List Char}

theorem Lasts.imp {phrase : Phrase} (h : Lasts g caseSensitive ends phrase)
    (himp : ∀ q, ends' q → ends q) : Lasts g caseSensitive ends' phrase :=
  fun _ _ _ _ more hpeg hq => h more hpeg (himp _ hq)

/-! ## Leaves -/

/-- A leaf that keeps to a line is steady. -/
theorem steady_leaf {e : Element} (h : e.keepsLine = true) :
    Steady g caseSensitive (.element e) := by
  obtain ⟨scan, hscanner, hkeeps⟩ := Element.exists_scanner h caseSensitive
  -- at an ending nothing is left to scan
  have hbegins : Begins g caseSensitive (.element e) := by
    intro active p q tokens hpeg hending
    have houtcome := hpeg.outcome_of_scanner hscanner
    rw [Position.skipTrivia_ending hending, hkeeps.nil] at houtcome
    cases houtcome
  refine ⟨fun active p q tokens more hpeg _ => ?_, hbegins, fun more active p hahead hpeg => ?_⟩
  · have hskip := Position.continued_skipTrivia more (hbegins hpeg)
    have houtcome := hpeg.outcome_of_scanner hscanner
    cases hscan : scan p.skipTrivia.rest with
    | none =>
      rw [hscan] at houtcome
      cases houtcome
    | some taken =>
      obtain ⟨n, kind?⟩ := taken
      rw [hscan] at houtcome
      cases houtcome
      have hscan' : scan (p.continued more).skipTrivia.rest = some (n, kind?) := by
        rw [hskip, Position.continued_rest, hkeeps.continued, hscan]
      have hleaf : Peg g caseSensitive active (.element e) (p.continued more)
          (some ((p.continued more).skipTrivia.advance n,
            (p.continued more).skipTrivia.leafTokens kind?)) := .leaf hscanner hscan'
      rw [hskip, Position.continued_advance more _ (hkeeps.within hscan)] at hleaf
      exact hleaf
  · have houtcome := hpeg.outcome_of_scanner hscanner
    refine .leafFails hscanner ?_
    rw [Position.continued_skipTrivia more hahead, Position.continued_rest, hkeeps.continued]
    exact Option.map_eq_none_iff.mp houtcome.symm

/-! ## Sequences -/

theorem lasts_nil : Lasts g caseSensitive ends (.sequence []) := by
  intro active p q tokens more hpeg _
  cases hpeg
  exact .nil

/-- A first part that lasts where the others begin. -/
theorem lasts_cons {first : Element} {rest : List Element}
    (hfirst : Lasts g caseSensitive ends' (.element first))
    (hrest : Lasts g caseSensitive ends (.sequence rest))
    (hbetween : ∀ ⦃active q r tokens⦄,
      Peg g caseSensitive active (.sequence rest) q (some (r, tokens)) → ends r → ends' q) :
    Lasts g caseSensitive ends (.sequence (first :: rest)) := by
  intro active p r tokens more hpeg hr
  cases hpeg with
  | cons hpeg hpeg' => exact .cons (hfirst more hpeg (hbetween hpeg' hr)) (hrest more hpeg' hr)

theorem begins_cons {first : Element} {rest : List Element}
    (hfirst : Begins g caseSensitive (.element first)) :
    Begins g caseSensitive (.sequence (first :: rest)) := by
  intro active p q tokens hpeg
  cases hpeg with
  | cons hpeg _ => exact hfirst hpeg

/-- A steady first part. -/
theorem Steady.lasts_cons {first : Element} {rest : List Element}
    (hfirst : Steady g caseSensitive (.element first))
    (hrest : Lasts g caseSensitive ends (.sequence rest)) :
    Lasts g caseSensitive ends (.sequence (first :: rest)) :=
  Compositing.lasts_cons hfirst.lasts hrest fun _ _ _ _ _ _ => trivial

theorem Steady.single {e : Element} (h : Steady g caseSensitive (.element e)) :
    Steady g caseSensitive (.sequence [e]) where
  lasts := h.lasts_cons lasts_nil
  begins := begins_cons h.begins
  stays := by
    intro more active p hahead hpeg
    cases hpeg with
    | consFails hpeg => exact .consFails (h.stays hahead hpeg)
    | consFailsLater _ hnil => cases hnil

/-- Steady parts, one after the other. -/
theorem lasts_of_steady {elements : List Element}
    (h : ∀ e ∈ elements, Steady g caseSensitive (.element e)) :
    Lasts g caseSensitive ends (.sequence elements) := by
  induction elements with
  | nil => exact lasts_nil
  | cons first rest ih =>
    rw [List.forall_mem_cons] at h
    exact h.1.lasts_cons (ih h.2)

/-- A sequence stays failed if its first part does, or the others do where that ends. -/
theorem staysFailed_cons {first : Element} {rest : List Element} {active : Nat} {p : Position}
    (hfirst : Steady g caseSensitive (.element first)) (hahead : p.Ahead)
    (hrest : ∀ ⦃q tokens⦄, Peg g caseSensitive active (.element first) p (some (q, tokens)) →
      StaysFailed g caseSensitive more active (.sequence rest) q) :
    StaysFailed g caseSensitive more active (.sequence (first :: rest)) p := by
  intro hpeg
  cases hpeg with
  | consFails hpeg => exact .consFails (hfirst.stays hahead hpeg)
  | consFailsLater hpeg hpeg' =>
    exact .consFailsLater (hfirst.lasts more hpeg trivial) (hrest hpeg hpeg')

/-! ## Alternatives -/

/-- One of the alternatives is what matches. -/
theorem Peg.exists_alternative {sequences : List (List Element)} {active : Nat} {p : Position}
    {result : Position × List Token}
    (h : Peg g caseSensitive active (.alternatives sequences) p (some result)) :
    ∃ elements ∈ sequences, Peg g caseSensitive active (.sequence elements) p (some result) := by
  induction sequences with
  | nil => cases h
  | cons first rest ih =>
    cases h with
    | firstMatches hpeg => exact ⟨first, List.mem_cons_self .., hpeg⟩
    | firstFails _ hrest =>
      obtain ⟨elements, hmem, hpeg⟩ := ih hrest
      exact ⟨elements, List.mem_cons_of_mem first hmem, hpeg⟩

theorem Peg.alternatives_none {sequences : List (List Element)} {active : Nat} {p : Position} :
    Peg g caseSensitive active (.alternatives sequences) p none ↔
      ∀ elements ∈ sequences, Peg g caseSensitive active (.sequence elements) p none := by
  induction sequences with
  | nil => exact ⟨nofun, fun _ => .noAlternative⟩
  | cons first rest ih =>
    rw [List.forall_mem_cons, ← ih]
    constructor
    · intro h
      cases h with
      | firstFails hfirst hrest => exact ⟨hfirst, hrest⟩
    · exact fun h => .firstFails h.1 h.2

/-- At a place where every alternative stays failed in front of a later one that matches there, a
    match lasts if it does for each of them. -/
theorem lasts_alternatives {sequences : List (List Element)} {active : Nat} {p q : Position}
    {tokens : List Token}
    (hlasts : ∀ elements ∈ sequences,
      Peg g caseSensitive active (.sequence elements) p (some (q, tokens)) →
      Peg g caseSensitive active (.sequence elements) (p.continued more)
        (some (q.continued more, tokens)))
    (hstays : sequences.Pairwise fun first second =>
      Peg g caseSensitive active (.sequence second) p (some (q, tokens)) →
      StaysFailed g caseSensitive more active (.sequence first) p)
    (h : Peg g caseSensitive active (.alternatives sequences) p (some (q, tokens))) :
    Peg g caseSensitive active (.alternatives sequences) (p.continued more)
      (some (q.continued more, tokens)) := by
  induction sequences with
  | nil => cases h
  | cons first rest ih =>
    rw [List.forall_mem_cons] at hlasts
    rw [List.pairwise_cons] at hstays
    cases h with
    | firstMatches hpeg => exact .firstMatches (hlasts.1 hpeg)
    | firstFails hfails hrest =>
      obtain ⟨second, hsecond, hpeg⟩ := hrest.exists_alternative
      exact .firstFails (hstays.1 second hsecond hpeg hfails) (ih hlasts.2 hstays.2 hrest)

/-- Steady alternatives are steady together. -/
theorem steady_alternatives {sequences : List (List Element)}
    (h : ∀ elements ∈ sequences, Steady g caseSensitive (.sequence elements)) :
    Steady g caseSensitive (.alternatives sequences) where
  lasts := by
    intro active p q tokens more hpeg hq
    refine lasts_alternatives (fun elements hmem hpeg => (h elements hmem).lasts more hpeg hq)
      ?_ hpeg
    refine List.pairwise_of_forall_mem_list fun first hfirst second hsecond hpeg => ?_
    exact (h first hfirst).stays ((h second hsecond).begins hpeg)
  begins := by
    intro active p q tokens hpeg
    obtain ⟨elements, hmem, hpeg⟩ := hpeg.exists_alternative
    exact (h elements hmem).begins hpeg
  stays := by
    intro more active p hahead hpeg
    rw [Peg.alternatives_none] at hpeg ⊢
    exact fun elements hmem => (h elements hmem).stays hahead (hpeg elements hmem)

/-! ## Rules -/

section
variable {name : String} {id : Nat} {r : Rule}

/-- A rule matches where its alternatives do. -/
theorem Peg.exists_of_rule {active : Nat} {p : Position} {result : Position × List Token}
    (hrule : g.rule? id = some r)
    (h : Peg g caseSensitive active (.element (.rule name id)) p (some result)) :
    active < Recognition.maxRuleDepth ∧
      Peg g caseSensitive (active + 1) (.alternatives r.alternatives) p (some result) := by
  rcases h.body_of_rule with ⟨hactive, r', hrule', hbody⟩ | ⟨_, hnone⟩
  · cases hrule.symm.trans hrule'
    exact ⟨hactive, hbody⟩
  · cases hnone

theorem lasts_rule (hrule : g.rule? id = some r)
    (h : Lasts g caseSensitive ends (.alternatives r.alternatives)) :
    Lasts g caseSensitive ends (.element (.rule name id)) := by
  intro active p q tokens more hpeg hq
  obtain ⟨hactive, hbody⟩ := hpeg.exists_of_rule hrule
  exact .rule hactive hrule (h more hbody hq)

theorem begins_rule (hrule : g.rule? id = some r)
    (h : Begins g caseSensitive (.alternatives r.alternatives)) :
    Begins g caseSensitive (.element (.rule name id)) := by
  intro active p q tokens hpeg
  exact h (hpeg.exists_of_rule hrule).2

theorem staysFailed_rule {active : Nat} {p : Position} (hrule : g.rule? id = some r)
    (h : StaysFailed g caseSensitive more (active + 1) (.alternatives r.alternatives) p) :
    StaysFailed g caseSensitive more active (.element (.rule name id)) p := by
  intro hpeg
  rcases hpeg.body_of_rule with ⟨hactive, r', hrule', hbody⟩ | ⟨hdeep | hmissing, _⟩
  · cases hrule.symm.trans hrule'
    exact .rule hactive hrule (h hbody)
  · exact .ruleTooDeep hdeep
  · cases hrule.symm.trans hmissing

theorem steady_rule (hrule : g.rule? id = some r)
    (h : Steady g caseSensitive (.alternatives r.alternatives)) :
    Steady g caseSensitive (.element (.rule name id)) where
  lasts := lasts_rule hrule h.lasts
  begins := begins_rule hrule h.begins
  stays _ _ _ hahead := staysFailed_rule hrule (h.stays hahead)

end

/-! ## Lookaheads and repetitions -/

/-- A lookahead lasts in front of something. -/
theorem lasts_notAhead {body : Element} (h : Steady g caseSensitive (.element body)) :
    Lasts g caseSensitive Position.Ahead (.element (.notAhead body)) := by
  intro active p q tokens more hpeg hq
  cases hpeg with
  | notAhead hbody => exact .notAhead (h.stays hq hbody)
  | leaf hscanner => cases hscanner

/-- A lookahead stays failed where what it looks for lasts. -/
theorem staysFailed_notAhead {body : Element} {active : Nat} {p : Position}
    (h : Lasts g caseSensitive (fun _ => True) (.element body)) :
    StaysFailed g caseSensitive more active (.element (.notAhead body)) p := by
  intro hpeg
  cases hpeg with
  | notAheadFails hbody => exact .notAheadFails (h more hbody trivial)
  | leafFails hscanner => cases hscanner

/-- A repetition lasts if its rounds begin with something and last in front of something, and the
    one that ends it stays failed there. -/
theorem lasts_repeated {body : Element} (hbegins : Begins g caseSensitive (.element body))
    (hbody : Lasts g caseSensitive Position.Ahead (.element body))
    (hahead : ∀ ⦃q⦄, ends q → q.Ahead)
    (hstays : ∀ ⦃more active q⦄, ends q →
      StaysFailed g caseSensitive more active (.element body) q) :
    Lasts g caseSensitive ends (.element (.repeated body)) := by
  intro active p q tokens more hpeg hq
  generalize hphrase : Phrase.element (.repeated body) = phrase at hpeg
  generalize houtcome : some (q, tokens) = outcome at hpeg
  induction hpeg generalizing q tokens with
  | repeatedStops hround =>
    cases hphrase
    cases houtcome
    exact .repeatedStops (hstays hq hround)
  | repeatedRests hround hoffset =>
    cases hphrase
    cases houtcome
    exact .repeatedRests (hbody more hround (hahead hq)) hoffset
  | repeatedGoes hround hoffset hrest _ ih =>
    rename_i between _ _ _ _
    cases hphrase
    cases houtcome
    have hlasts := ih hq rfl rfl
    -- where a round ends, the next one begins or the repetition ends
    have hbetween : between.Ahead := by
      cases hrest with
      | repeatedStops _ => exact hahead hq
      | repeatedRests hnext _ | repeatedGoes hnext _ _ => exact hbegins hnext
      | leaf hscanner => cases hscanner
    exact .repeatedGoes (hbody more hround hbetween) hoffset hlasts
  | leaf hscanner _ =>
    cases hphrase
    cases hscanner
  | _ => cases hphrase <;> cases houtcome

end Compositing
