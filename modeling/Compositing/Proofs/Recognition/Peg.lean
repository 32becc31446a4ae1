import Compositing.Proofs.Text.Advance
import Compositing.Recognition

/-! # Parsing expressions

    What the elements of a grammar mean, said without a state: a phrase at a
    position either fails or leads to a position with some tokens.  Nothing is
    undone, no token is taken back and nothing is counted but the rules under
    way, of which there may be 128.

    The relation is deterministic, and a successful phrase leads forward. -/

namespace Compositing

/-- What can be recognized: an element, a sequence of elements, or alternatives. -/
inductive Phrase where
  | element (e : Element)
  | sequence (elements : List Element)
  | alternatives (sequences : List (List Element))

/-- The scanner of a leaf: how many characters it takes of a text that it accepts, and the kind
    of its token if it has one.  The other elements have no scanner. -/
def Element.scanner? (caseSensitive : Bool) :
    Element → Option (List Char → Option (Nat × Option Token.Kind))
  | .terminal text emits token =>
    some fun rest => (Lexeme.matchLiteral caseSensitive text.toList rest).map
      (·, if emits then token.map .keyword else none)
  | .number _ => some fun rest => (Scan.number rest).map fun (n, x) => (n, some (.number x))
  | .label _ => some fun rest => (Scan.label rest).map fun (n, s) => (n, some (.label s))
  | .run chars negated =>
    some fun rest =>
      (Scan.run chars.toList negated rest).map fun (n, s) => (n, some (.label s))
  | _ => none

/-- The tokens of a leaf that begins at a position. -/
def Position.leafTokens (p : Position) (kind? : Option Token.Kind) : List Token :=
  kind?.toList.map fun kind => ⟨kind, p.offset, p.line⟩

/-- `Peg g caseSensitive active phrase p outcome`: with `active` rules under way, the phrase at
    `p` fails (`none`), or leads to a position and has some tokens. -/
inductive Peg (g : Grammar) (caseSensitive : Bool) :
    (active : Nat) → Phrase → Position → Option (Position × List Token) → Prop where
  -- leaves
  | leaf {active e scan p n kind?} (hscanner : e.scanner? caseSensitive = some scan)
    (hscan : scan p.skipTrivia.rest = some (n, kind?)) :
    Peg g caseSensitive active (.element e) p
      (some (p.skipTrivia.advance n, p.skipTrivia.leafTokens kind?))
  | leafFails {active e scan p} (hscanner : e.scanner? caseSensitive = some scan)
    (hscan : scan p.skipTrivia.rest = none) :
    Peg g caseSensitive active (.element e) p none
  -- rules
  | rule {active name id r p outcome} (hactive : active < Recognition.maxRuleDepth)
    (hrule : g.rule? id = some r)
    (hbody : Peg g caseSensitive (active + 1) (.alternatives r.alternatives) p outcome) :
    Peg g caseSensitive active (.element (.rule name id)) p outcome
  | ruleMissing {active name id p} (hactive : active < Recognition.maxRuleDepth)
    (hrule : g.rule? id = none) :
    Peg g caseSensitive active (.element (.rule name id)) p none
  | ruleTooDeep {active name id p} (hactive : Recognition.maxRuleDepth ≤ active) :
    Peg g caseSensitive active (.element (.rule name id)) p none
  -- repetitions
  | repeatedStops {active body p}
    (hbody : Peg g caseSensitive active (.element body) p none) :
    Peg g caseSensitive active (.element (.repeated body)) p (some (p, []))
  | repeatedRests {active body p q tokens}
    (hbody : Peg g caseSensitive active (.element body) p (some (q, tokens)))
    (hoffset : q.offset = p.offset) :
    Peg g caseSensitive active (.element (.repeated body)) p (some (q, tokens))
  | repeatedGoes {active body p q r tokens more}
    (hbody : Peg g caseSensitive active (.element body) p (some (q, tokens)))
    (hoffset : q.offset ≠ p.offset)
    (hrest : Peg g caseSensitive active (.element (.repeated body)) q (some (r, more))) :
    Peg g caseSensitive active (.element (.repeated body)) p (some (r, tokens ++ more))
  -- options
  | optionalTaken {active body p q tokens}
    (hbody : Peg g caseSensitive active (.element body) p (some (q, tokens))) :
    Peg g caseSensitive active (.element (.optional body)) p (some (q, tokens))
  | optionalLeft {active body p}
    (hbody : Peg g caseSensitive active (.element body) p none) :
    Peg g caseSensitive active (.element (.optional body)) p (some (p, []))
  -- lookaheads
  | notAhead {active body p}
    (hbody : Peg g caseSensitive active (.element body) p none) :
    Peg g caseSensitive active (.element (.notAhead body)) p (some (p, []))
  | notAheadFails {active body p q tokens}
    (hbody : Peg g caseSensitive active (.element body) p (some (q, tokens))) :
    Peg g caseSensitive active (.element (.notAhead body)) p none
  -- groups
  | choice {active sequences p outcome}
    (hbody : Peg g caseSensitive active (.alternatives sequences) p outcome) :
    Peg g caseSensitive active (.element (.choice sequences)) p outcome
  -- sequences
  | nil {active p} : Peg g caseSensitive active (.sequence []) p (some (p, []))
  | cons {active first rest p q r tokens more}
    (hfirst : Peg g caseSensitive active (.element first) p (some (q, tokens)))
    (hrest : Peg g caseSensitive active (.sequence rest) q (some (r, more))) :
    Peg g caseSensitive active (.sequence (first :: rest)) p (some (r, tokens ++ more))
  | consFails {active first rest p}
    (hfirst : Peg g caseSensitive active (.element first) p none) :
    Peg g caseSensitive active (.sequence (first :: rest)) p none
  | consFailsLater {active first rest p q tokens}
    (hfirst : Peg g caseSensitive active (.element first) p (some (q, tokens)))
    (hrest : Peg g caseSensitive active (.sequence rest) q none) :
    Peg g caseSensitive active (.sequence (first :: rest)) p none
  -- alternatives
  | noAlternative {active p} : Peg g caseSensitive active (.alternatives []) p none
  | firstMatches {active first rest p result}
    (hfirst : Peg g caseSensitive active (.sequence first) p (some result)) :
    Peg g caseSensitive active (.alternatives (first :: rest)) p (some result)
  | firstFails {active first rest p outcome}
    (hfirst : Peg g caseSensitive active (.sequence first) p none)
    (hrest : Peg g caseSensitive active (.alternatives rest) p outcome) :
    Peg g caseSensitive active (.alternatives (first :: rest)) p outcome

namespace Peg
variable {g : Grammar} {caseSensitive : Bool} {active : Nat} {phrase : Phrase} {p : Position}

/-- A successful phrase leads forward. -/
theorem reaches {q : Position} {tokens : List Token}
    (h : Peg g caseSensitive active phrase p (some (q, tokens))) : p.Reaches q := by
  generalize ho : some (q, tokens) = outcome at h
  induction h generalizing q tokens with
  | leaf _ _ =>
    cases ho
    exact (Position.reaches_skipTrivia _).trans ⟨_, rfl⟩
  | leafFails _ _ | ruleMissing _ _ | ruleTooDeep _ | notAheadFails _ _ | consFails _ _
  | consFailsLater _ _ _ _ | noAlternative => cases ho
  | rule _ _ _ ih | choice _ ih | firstFails _ _ _ ih => exact ih ho
  | repeatedStops _ _ | optionalLeft _ _ | notAhead _ _ | nil =>
    cases ho
    exact .refl _
  | repeatedRests _ _ ih | optionalTaken _ ih => exact ih ho
  | firstMatches _ ih => exact ih ho
  | repeatedGoes _ _ _ ihbody ihrest =>
    cases ho
    exact (ihbody rfl).trans (ihrest rfl)
  | cons _ _ ihfirst ihrest =>
    cases ho
    exact (ihfirst rfl).trans (ihrest rfl)

/-- The outcome of a leaf is what its scanner says. -/
theorem outcome_of_scanner {e : Element} {outcome : Option (Position × List Token)}
    {scan : List Char → Option (Nat × Option Token.Kind)}
    (hscanner : e.scanner? caseSensitive = some scan)
    (h : Peg g caseSensitive active (.element e) p outcome) :
    outcome = (scan p.skipTrivia.rest).map fun (n, kind?) =>
      (p.skipTrivia.advance n, p.skipTrivia.leafTokens kind?) := by
  cases h with
  | leaf hscanner' hscan | leafFails hscanner' hscan =>
    cases hscanner.symm.trans hscanner'
    rw [hscan]
    rfl
  | _ => cases hscanner

/-- A rule has the outcome of its alternatives, one level deeper, or fails. -/
theorem body_of_rule {name : String} {id : Nat} {outcome : Option (Position × List Token)}
    (h : Peg g caseSensitive active (.element (.rule name id)) p outcome) :
    (active < Recognition.maxRuleDepth ∧ ∃ r, g.rule? id = some r ∧
      Peg g caseSensitive (active + 1) (.alternatives r.alternatives) p outcome) ∨
    ((Recognition.maxRuleDepth ≤ active ∨ g.rule? id = none) ∧ outcome = none) := by
  cases h with
  | rule hactive hrule hbody => exact .inl ⟨hactive, _, hrule, hbody⟩
  | ruleMissing _ hrule => exact .inr ⟨.inr hrule, rfl⟩
  | ruleTooDeep hdeep => exact .inr ⟨.inl hdeep, rfl⟩
  | leaf hscanner | leafFails hscanner => cases hscanner

/-- A phrase has one outcome at a position. -/
theorem deterministic {outcome outcome' : Option (Position × List Token)}
    (h : Peg g caseSensitive active phrase p outcome)
    (h' : Peg g caseSensitive active phrase p outcome') : outcome = outcome' := by
  -- the constructors of the other derivation that fit the phrase are compared by what is known
  -- of the first parts; a leaf is ruled out where the phrase has no scanner
  induction h generalizing outcome' with
  | leaf hscanner hscan | leafFails hscanner hscan =>
    have houtcome := outcome_of_scanner hscanner h'
    rw [hscan] at houtcome
    exact houtcome.symm
  | rule hactive hrule _ ih =>
    rcases body_of_rule h' with ⟨_, r, hrule', hbody'⟩ | ⟨hdeep | hmissing, _⟩
    · cases hrule.symm.trans hrule'
      exact ih hbody'
    · omega
    · cases hrule.symm.trans hmissing
  | ruleMissing hactive hrule =>
    rcases body_of_rule h' with ⟨_, r, hrule', _⟩ | ⟨_, hfails⟩
    · cases hrule.symm.trans hrule'
    · exact hfails.symm
  | ruleTooDeep hdeep =>
    rcases body_of_rule h' with ⟨hactive, _⟩ | ⟨_, hfails⟩
    · omega
    · exact hfails.symm
  | repeatedStops _ ih =>
    cases h' with
    | repeatedStops _ => rfl
    | repeatedRests hbody' _ | repeatedGoes hbody' _ _ => cases ih hbody'
    | leaf hscanner | leafFails hscanner => cases hscanner
  | repeatedRests _ hoffset ih =>
    cases h' with
    | repeatedStops hbody' => cases ih hbody'
    | repeatedRests hbody' _ => exact ih hbody'
    | repeatedGoes hbody' hoffset' _ =>
      cases ih hbody'
      exact absurd hoffset hoffset'
    | leaf hscanner | leafFails hscanner => cases hscanner
  | repeatedGoes _ hoffset _ ihbody ihrest =>
    cases h' with
    | repeatedStops hbody' => cases ihbody hbody'
    | repeatedRests hbody' hoffset' =>
      cases ihbody hbody'
      exact absurd hoffset' hoffset
    | repeatedGoes hbody' _ hrest' =>
      cases ihbody hbody'
      cases ihrest hrest'
      rfl
    | leaf hscanner | leafFails hscanner => cases hscanner
  | optionalTaken _ ih =>
    cases h' with
    | optionalTaken hbody' => exact ih hbody'
    | optionalLeft hbody' => cases ih hbody'
    | leaf hscanner | leafFails hscanner => cases hscanner
  | optionalLeft _ ih =>
    cases h' with
    | optionalTaken hbody' => cases ih hbody'
    | optionalLeft _ => rfl
    | leaf hscanner | leafFails hscanner => cases hscanner
  | notAhead _ ih =>
    cases h' with
    | notAhead _ => rfl
    | notAheadFails hbody' => cases ih hbody'
    | leaf hscanner | leafFails hscanner => cases hscanner
  | notAheadFails _ ih =>
    cases h' with
    | notAhead hbody' => cases ih hbody'
    | notAheadFails _ => rfl
    | leaf hscanner | leafFails hscanner => cases hscanner
  | choice _ ih =>
    cases h' with
    | choice hbody' => exact ih hbody'
    | leaf hscanner | leafFails hscanner => cases hscanner
  | nil =>
    cases h'
    rfl
  | cons _ _ ihfirst ihrest =>
    cases h' with
    | cons hfirst' hrest' =>
      cases ihfirst hfirst'
      cases ihrest hrest'
      rfl
    | consFails hfirst' => cases ihfirst hfirst'
    | consFailsLater hfirst' hrest' =>
      cases ihfirst hfirst'
      cases ihrest hrest'
  | consFails _ ih =>
    cases h' with
    | cons hfirst' _ => cases ih hfirst'
    | _ => rfl
  | consFailsLater _ _ ihfirst ihrest =>
    cases h' with
    | cons hfirst' hrest' =>
      cases ihfirst hfirst'
      cases ihrest hrest'
    | _ => rfl
  | noAlternative =>
    cases h'
    rfl
  | firstMatches _ ih =>
    cases h' with
    | firstMatches hfirst' => exact ih hfirst'
    | firstFails hfirst' _ => cases ih hfirst'
  | firstFails _ _ ihfirst ihrest =>
    cases h' with
    | firstMatches hfirst' => cases ihfirst hfirst'
    | firstFails _ hrest' => exact ihrest hrest'

end Peg
end Compositing
