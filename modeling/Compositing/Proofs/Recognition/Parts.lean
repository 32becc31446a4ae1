import Compositing.Proofs.Recognition.Trials

/-! # What a trial tries next

    A trial tries at most two parts itself: the first, and one that depends on
    how the first ended.  As a phrase has one outcome, the parts of a trial are
    known as soon as the outcome of its first part is. -/

namespace Compositing.Trial
variable {g : Grammar} {caseSensitive : Bool} {active : Nat} {emitting : Bool} {p q : Position}

/-- The trial tries just these parts itself. -/
def HasParts (g : Grammar) (caseSensitive : Bool) (t : Trial) (parts : List Trial) : Prop :=
  ∀ t', Tries g caseSensitive t t' ↔ t' ∈ parts

/-- What is tried and all there is to try is the one part. -/
theorem HasParts.one {t part : Trial} (htried : Tries g caseSensitive t part)
    (honly : ∀ t', Tries g caseSensitive t t' → t' = part) :
    HasParts g caseSensitive t [part] := by
  intro t'
  rw [List.mem_singleton]
  constructor
  · exact honly t'
  · intro hpart
    rw [hpart]
    exact htried

theorem HasParts.two {t part part' : Trial} (htried : Tries g caseSensitive t part)
    (htried' : Tries g caseSensitive t part')
    (honly : ∀ t', Tries g caseSensitive t t' → t' = part ∨ t' = part') :
    HasParts g caseSensitive t [part, part'] := by
  intro t'
  rw [List.mem_cons, List.mem_singleton]
  constructor
  · exact honly t'
  · intro hpart
    rcases hpart with hpart | hpart <;> rw [hpart]
    · exact htried
    · exact htried'

/-- A leaf has no parts. -/
theorem hasParts_leaf {e : Element} {scan : List Char → Option (Nat × Option Token.Kind)}
    (hscanner : e.scanner? caseSensitive = some scan) :
    HasParts g caseSensitive ⟨active, emitting, .element e, p⟩ [] := by
  intro t'
  refine ⟨fun htries => ?_, nofun⟩
  -- an element with a part has no scanner
  cases htries <;> cases hscanner

/-- A rule that may be entered has its alternatives as its part. -/
theorem hasParts_rule {name : String} {id : Nat} {r : Rule}
    (hactive : active < Recognition.maxRuleDepth) (hrule : g.rule? id = some r) :
    HasParts g caseSensitive ⟨active, emitting, .element (.rule name id), p⟩
      [⟨active + 1, emitting, .alternatives r.alternatives, p⟩] := by
  apply HasParts.one (.rule hactive hrule)
  intro t' htries
  cases htries with
  | rule _ hrule' =>
    have hsame := Option.some.inj (hrule.symm.trans hrule')
    rw [hsame]

/-- A rule that is not entered has no parts. -/
theorem hasParts_refused {name : String} {id : Nat}
    (hrefused : Recognition.maxRuleDepth ≤ active ∨ g.rule? id = none) :
    HasParts g caseSensitive ⟨active, emitting, .element (.rule name id), p⟩ [] := by
  intro t'
  refine ⟨fun htries => ?_, nofun⟩
  cases htries with
  | rule hactive hrule =>
    rcases hrefused with hdeep | hmissing
    · omega
    · cases hrule.symm.trans hmissing

/-- The last round of a repetition is its only part. -/
theorem hasParts_lastRound {body : Element} {outcome : Option (Position × List Token)}
    (hbody : Peg g caseSensitive active (.element body) p outcome)
    (hstays : ∀ result ∈ outcome, result.1.offset = p.offset) :
    HasParts g caseSensitive ⟨active, emitting, .element (.repeated body), p⟩
      [⟨active, emitting, .element body, p⟩] := by
  apply HasParts.one .round
  intro t' htries
  cases htries with
  | round => rfl
  | rounds hbody' hoffset =>
    have houtcome := hbody.deterministic hbody'
    exact absurd (hstays _ houtcome) hoffset

/-- A round that advances is followed by the rounds after it. -/
theorem hasParts_rounds {body : Element} {tokens : List Token}
    (hbody : Peg g caseSensitive active (.element body) p (some (q, tokens)))
    (hoffset : q.offset ≠ p.offset) :
    HasParts g caseSensitive ⟨active, emitting, .element (.repeated body), p⟩
      [⟨active, emitting, .element body, p⟩, ⟨active, emitting, .element (.repeated body), q⟩] := by
  apply HasParts.two .round (.rounds hbody hoffset)
  intro t' htries
  cases htries with
  | round => exact .inl rfl
  | rounds hbody' _ =>
    cases hbody.deterministic hbody'
    exact .inr rfl

theorem hasParts_optional {body : Element} :
    HasParts g caseSensitive ⟨active, emitting, .element (.optional body), p⟩
      [⟨active, emitting, .element body, p⟩] := by
  apply HasParts.one .optional
  intro t' htries
  cases htries
  rfl

/-- The body of a lookahead is tried silently. -/
theorem hasParts_notAhead {body : Element} :
    HasParts g caseSensitive ⟨active, emitting, .element (.notAhead body), p⟩
      [⟨active, false, .element body, p⟩] := by
  apply HasParts.one .notAhead
  intro t' htries
  cases htries
  rfl

theorem hasParts_choice {sequences : List (List Element)} :
    HasParts g caseSensitive ⟨active, emitting, .element (.choice sequences), p⟩
      [⟨active, emitting, .alternatives sequences, p⟩] := by
  apply HasParts.one .choice
  intro t' htries
  cases htries
  rfl

theorem hasParts_nil : HasParts g caseSensitive ⟨active, emitting, .sequence [], p⟩ [] := by
  intro t'
  exact ⟨nofun, nofun⟩

/-- A sequence whose first element fails is tried no further. -/
theorem hasParts_failing {first : Element} {rest : List Element}
    (hfirst : Peg g caseSensitive active (.element first) p none) :
    HasParts g caseSensitive ⟨active, emitting, .sequence (first :: rest), p⟩
      [⟨active, emitting, .element first, p⟩] := by
  apply HasParts.one .first
  intro t' htries
  cases htries with
  | first => rfl
  | following hfirst' => cases hfirst.deterministic hfirst'

/-- The rest of a sequence is tried where its first element ends. -/
theorem hasParts_following {first : Element} {rest : List Element} {tokens : List Token}
    (hfirst : Peg g caseSensitive active (.element first) p (some (q, tokens))) :
    HasParts g caseSensitive ⟨active, emitting, .sequence (first :: rest), p⟩
      [⟨active, emitting, .element first, p⟩, ⟨active, emitting, .sequence rest, q⟩] := by
  apply HasParts.two .first (.following hfirst)
  intro t' htries
  cases htries with
  | first => exact .inl rfl
  | following hfirst' =>
    cases hfirst.deterministic hfirst'
    exact .inr rfl

theorem hasParts_noAlternative :
    HasParts g caseSensitive ⟨active, emitting, .alternatives [], p⟩ [] := by
  intro t'
  exact ⟨nofun, nofun⟩

/-- Behind an alternative that matches none is tried. -/
theorem hasParts_matching {first : List Element} {rest : List (List Element)}
    {result : Position × List Token}
    (hfirst : Peg g caseSensitive active (.sequence first) p (some result)) :
    HasParts g caseSensitive ⟨active, emitting, .alternatives (first :: rest), p⟩
      [⟨active, emitting, .sequence first, p⟩] := by
  apply HasParts.one .alternative
  intro t' htries
  cases htries with
  | alternative => rfl
  | others hfirst' => cases hfirst.deterministic hfirst'

/-- Behind an alternative that fails the others are tried, at the same place. -/
theorem hasParts_others {first : List Element} {rest : List (List Element)}
    (hfirst : Peg g caseSensitive active (.sequence first) p none) :
    HasParts g caseSensitive ⟨active, emitting, .alternatives (first :: rest), p⟩
      [⟨active, emitting, .sequence first, p⟩, ⟨active, emitting, .alternatives rest, p⟩] := by
  apply HasParts.two .alternative (.others hfirst)
  intro t' htries
  cases htries with
  | alternative => exact .inl rfl
  | others _ => exact .inr rfl

end Compositing.Trial
