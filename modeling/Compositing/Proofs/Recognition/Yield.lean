import Compositing.Proofs.Recognition.Agreement
import Compositing.Statement

/-! # Yields

    Which kinds of token a phrase can have, whatever the text: the grammar read
    as a context-free one.  Order of alternatives, lookaheads and greed only
    rule out some of the yields, so each match has one of them, and so has each
    statement of a text.  For a grammar whose rules are known, the yields of a
    phrase are computed by the lemmas `yields_…`, one for each form of phrase. -/

namespace Compositing

/-- `Yields g phrase kinds`: the phrase can have tokens of these kinds, in this order. -/
inductive Yields (g : Grammar) : Phrase → List Token.Kind → Prop where
  | terminal {text emits token} :
    Yields g (.element (.terminal text emits token))
      (if emits then token.map Token.Kind.keyword else none).toList
  | number {name x} : Yields g (.element (.number name)) [.number x]
  | label {name s} : Yields g (.element (.label name)) [.label s]
  | run {chars negated s} : Yields g (.element (.run chars negated)) [.label s]
  | rule {name id r kinds} (hrule : g.rule? id = some r)
    (hbody : Yields g (.alternatives r.alternatives) kinds) :
    Yields g (.element (.rule name id)) kinds
  | repeatedNone {body} : Yields g (.element (.repeated body)) []
  | repeatedMore {body kinds more} (hbody : Yields g (.element body) kinds)
    (hrest : Yields g (.element (.repeated body)) more) :
    Yields g (.element (.repeated body)) (kinds ++ more)
  | optionalTaken {body kinds} (hbody : Yields g (.element body) kinds) :
    Yields g (.element (.optional body)) kinds
  | optionalLeft {body} : Yields g (.element (.optional body)) []
  | notAhead {body} : Yields g (.element (.notAhead body)) []
  | choice {sequences kinds} (hbody : Yields g (.alternatives sequences) kinds) :
    Yields g (.element (.choice sequences)) kinds
  | nil : Yields g (.sequence []) []
  | cons {first rest kinds more} (hfirst : Yields g (.element first) kinds)
    (hrest : Yields g (.sequence rest) more) :
    Yields g (.sequence (first :: rest)) (kinds ++ more)
  | first {first rest kinds} (hfirst : Yields g (.sequence first) kinds) :
    Yields g (.alternatives (first :: rest)) kinds
  | later {first rest kinds} (hrest : Yields g (.alternatives rest) kinds) :
    Yields g (.alternatives (first :: rest)) kinds

/-! ## Matches -/

/-- The yield of a leaf, whatever it scans. -/
theorem yields_of_scan {g : Grammar} {caseSensitive : Bool} {e : Element}
    {scan : List Char → Option (Nat × Option Token.Kind)} {rest : List Char} {n : Nat}
    {kind? : Option Token.Kind} (hscanner : e.scanner? caseSensitive = some scan)
    (hscan : scan rest = some (n, kind?)) : Yields g (.element e) kind?.toList := by
  cases e with
  | terminal text emits token =>
    cases hscanner
    obtain ⟨_, _, h⟩ := Option.map_eq_some_iff.mp hscan
    cases h
    exact .terminal
  | number name =>
    cases hscanner
    obtain ⟨⟨_, x⟩, _, h⟩ := Option.map_eq_some_iff.mp hscan
    cases h
    exact .number
  | label name =>
    cases hscanner
    obtain ⟨⟨_, s⟩, _, h⟩ := Option.map_eq_some_iff.mp hscan
    cases h
    exact .label
  | run chars negated =>
    cases hscanner
    obtain ⟨⟨_, s⟩, _, h⟩ := Option.map_eq_some_iff.mp hscan
    cases h
    exact .run
  | _ => cases hscanner

/-- The tokens of a match are a yield of its phrase. -/
theorem Peg.yields {g : Grammar} {caseSensitive : Bool} {active : Nat} {phrase : Phrase}
    {p q : Position} {tokens : List Token}
    (h : Peg g caseSensitive active phrase p (some (q, tokens))) :
    Yields g phrase (tokens.map (·.kind)) := by
  -- a yield forgets the positions, so the induction is on the match with its outcome apart
  generalize ho : some (q, tokens) = outcome at h
  induction h generalizing q tokens with
  | leaf hscanner hscan =>
    cases ho
    have hkinds : ∀ (place : Position) (kind? : Option Token.Kind),
        (place.leafTokens kind?).map (·.kind) = kind?.toList := by
      intro place kind?
      cases kind? <;> rfl
    rw [hkinds]
    exact yields_of_scan hscanner hscan
  | leafFails _ _ | ruleMissing _ _ | ruleTooDeep _ | notAheadFails _ _ | consFails _ _
  | consFailsLater _ _ _ _ | noAlternative => cases ho
  | rule _ hrule _ ih => exact .rule hrule (ih ho)
  | repeatedStops _ _ =>
    cases ho
    exact .repeatedNone
  | repeatedRests _ _ ih =>
    -- a round that does not advance is the only one
    have hround := Yields.repeatedMore (ih ho) .repeatedNone
    rwa [List.append_nil] at hround
  | repeatedGoes _ _ _ ihbody ihrest =>
    cases ho
    rw [List.map_append]
    exact .repeatedMore (ihbody rfl) (ihrest rfl)
  | optionalTaken _ ih => exact .optionalTaken (ih ho)
  | optionalLeft _ _ =>
    cases ho
    exact .optionalLeft
  | notAhead _ _ =>
    cases ho
    exact .notAhead
  | choice _ ih => exact .choice (ih ho)
  | nil =>
    cases ho
    exact .nil
  | cons _ _ ihfirst ihrest =>
    cases ho
    rw [List.map_append]
    exact .cons (ihfirst rfl) (ihrest rfl)
  | firstMatches _ ih => exact .first (ih ho)
  | firstFails _ _ _ ihrest => exact .later (ihrest ho)

/-! ## Statements -/

/-- An event of a text is the next event at some position. -/
theorem Event.next?_of_mem_all {recognize : Position → Recognition} {fuel : Nat} {p : Position}
    {event : Event} (h : event ∈ Event.all recognize fuel p) :
    ∃ q rest, Event.next? recognize q = some (event, rest) := by
  induction fuel generalizing p with
  | zero => cases h
  | succ fuel ih =>
    unfold Event.all at h
    cases hnext : Event.next? recognize p with
    | none =>
      rw [hnext] at h
      cases h
    | some found =>
      rw [hnext] at h
      rcases List.mem_cons.mp h with rfl | h
      · exact ⟨p, found.2, hnext⟩
      · exact ih h

/-- The tokens of a statement event are those of a match. -/
theorem Event.matched_of_next? {recognize : Position → Recognition} {p rest : Position}
    {statement : Statement} (h : Event.next? recognize p = some (.statement statement, rest)) :
    (recognize p.skipTrivia).matched = true ∧
      (recognize p.skipTrivia).tokens = statement.tokens := by
  unfold Event.next? at h
  simp only at h
  split at h
  · cases h
  · split at h
    · rename_i hmatched
      cases h
      exact ⟨(Bool.and_eq_true_iff.mp hmatched).1, rfl⟩
    · cases h

/-- The tokens of every statement of a text are a yield of the statement element. -/
theorem Grammar.yields_of_mem_events {g : Grammar} {caseSensitive : Bool} {text : List Char}
    {statement : Statement} (h : Event.statement statement ∈ g.events caseSensitive text) :
    Yields g (.element g.statement) (statement.tokens.map (·.kind)) := by
  obtain ⟨p, rest, hnext⟩ := Event.next?_of_mem_all h
  obtain ⟨hmatched, htokens⟩ := Event.matched_of_next? hnext
  obtain ⟨outcome, hpeg, hreports⟩ :=
    Recognition.reports_recognize g caseSensitive g.statement p.skipTrivia p.skipTrivia.offset
  rw [hreports.matched] at hmatched
  obtain ⟨⟨q, tokens⟩, rfl⟩ := Option.isSome_iff_exists.mp hmatched
  rw [← htokens, hreports.tokens]
  exact hpeg.yields

/-! ## Computing yields -/

section
variable {g : Grammar} {kinds : List Token.Kind}

theorem yields_terminal {text : String} {emits : Bool} {token : Option Nat} :
    Yields g (.element (.terminal text emits token)) kinds ↔
      kinds = (if emits then token.map Token.Kind.keyword else none).toList := by
  constructor
  · rintro ⟨⟩
    rfl
  · rintro rfl
    exact .terminal

theorem yields_number {name : String} :
    Yields g (.element (.number name)) kinds ↔ ∃ x, kinds = [.number x] := by
  constructor
  · rintro ⟨⟩
    exact ⟨_, rfl⟩
  · rintro ⟨x, rfl⟩
    exact .number

theorem yields_label {name : String} :
    Yields g (.element (.label name)) kinds ↔ ∃ s, kinds = [.label s] := by
  constructor
  · rintro ⟨⟩
    exact ⟨_, rfl⟩
  · rintro ⟨s, rfl⟩
    exact .label

theorem yields_run {chars : String} {negated : Bool} :
    Yields g (.element (.run chars negated)) kinds ↔ ∃ s, kinds = [.label s] := by
  constructor
  · rintro ⟨⟩
    exact ⟨_, rfl⟩
  · rintro ⟨s, rfl⟩
    exact .run

theorem yields_rule {name : String} {id : Nat} {r : Rule} (hrule : g.rule? id = some r) :
    Yields g (.element (.rule name id)) kinds ↔ Yields g (.alternatives r.alternatives) kinds := by
  constructor
  · rintro ⟨⟩
    rename_i hrule' hbody
    rw [hrule] at hrule'
    cases hrule'
    exact hbody
  · exact .rule hrule

/-- A repetition yields what its body yields, any number of times. -/
theorem yields_repeated {body : Element} :
    Yields g (.element (.repeated body)) kinds ↔
      ∃ rounds : List (List Token.Kind),
        (∀ round ∈ rounds, Yields g (.element body) round) ∧ kinds = rounds.flatten := by
  constructor
  · intro h
    generalize hphrase : Phrase.element (.repeated body) = phrase at h
    induction h with
    | repeatedNone => exact ⟨[], by simp, rfl⟩
    | repeatedMore hbody _ _ ihrest =>
      cases hphrase
      obtain ⟨rounds, hrounds, rfl⟩ := ihrest rfl
      refine ⟨_ :: rounds, ?_, rfl⟩
      simpa using ⟨hbody, hrounds⟩
    | _ => cases hphrase
  · rintro ⟨rounds, hrounds, rfl⟩
    induction rounds with
    | nil => exact .repeatedNone
    | cons round rounds ih =>
      rw [List.forall_mem_cons] at hrounds
      exact .repeatedMore hrounds.1 (ih hrounds.2)

theorem yields_notAhead {body : Element} :
    Yields g (.element (.notAhead body)) kinds ↔ kinds = [] := by
  constructor
  · rintro ⟨⟩
    rfl
  · rintro rfl
    exact .notAhead

theorem yields_nil : Yields g (.sequence []) kinds ↔ kinds = [] := by
  constructor
  · rintro ⟨⟩
    rfl
  · rintro rfl
    exact .nil

theorem yields_cons {first : Element} {rest : List Element} :
    Yields g (.sequence (first :: rest)) kinds ↔
      ∃ head tail, Yields g (.element first) head ∧ Yields g (.sequence rest) tail ∧
        kinds = head ++ tail := by
  constructor
  · rintro ⟨⟩
    exact ⟨_, _, by assumption, by assumption, rfl⟩
  · rintro ⟨head, tail, hfirst, hrest, rfl⟩
    exact .cons hfirst hrest

theorem yields_alternatives {sequences : List (List Element)} :
    Yields g (.alternatives sequences) kinds ↔
      ∃ sequence ∈ sequences, Yields g (.sequence sequence) kinds := by
  induction sequences with
  | nil => exact ⟨by rintro ⟨⟩, by simp⟩
  | cons first rest ih =>
    constructor
    · rintro ⟨⟩
      · exact ⟨first, by simp, by assumption⟩
      · obtain ⟨sequence, hmem, h⟩ := ih.mp (by assumption)
        exact ⟨sequence, by simp [hmem], h⟩
    · rintro ⟨sequence, hmem, h⟩
      rcases List.mem_cons.mp hmem with rfl | hmem
      · exact .first h
      · exact .later (ih.mpr ⟨sequence, hmem, h⟩)

end
end Compositing
