import Compositing.Proofs.Recognition.Trivia

/-! # The course of a match

    A match is made of the leaves that it took, in the order of the text.  Each
    was accepted where it stands and begins behind the one before it.  What a
    lookahead tries is no part of the course, and the tokens of a match are
    those of the leaves of its course. -/

namespace Compositing

/-- A leaf that a match took: where it stands behind white space and comments, how many characters
    it takes and the kind of its token, if it has one. -/
structure Leaf where
  element : Element
  place : Position
  length : Nat
  kind? : Option Token.Kind

namespace Leaf

/-- The token of a leaf. -/
def token? (leaf : Leaf) : Option Token :=
  leaf.kind?.map (⟨·, leaf.place.offset, leaf.place.line⟩)

/-- The position behind a leaf. -/
def finish (leaf : Leaf) : Position := leaf.place.advance leaf.length

/-- The scanner of the leaf accepts what stands there. -/
def Accepted (caseSensitive : Bool) (leaf : Leaf) : Prop :=
  ∃ scan, leaf.element.scanner? caseSensitive = some scan ∧
    scan leaf.place.rest = some (leaf.length, leaf.kind?)

/-- The leaves stand one behind the other from `p` to `q`. -/
def Between (p q : Position) : List Leaf → Prop
  | [] => p.Reaches q
  | leaf :: rest => p.Reaches leaf.place ∧ Between leaf.finish q rest

end Leaf

/-- `Course g caseSensitive active phrase p q leaves`: with `active` rules under way, the phrase
    matches from `p` to `q` and takes the leaves.  What has to fail on the way fails as `Peg`
    says. -/
inductive Course (g : Grammar) (caseSensitive : Bool) :
    (active : Nat) → Phrase → (p q : Position) → List Leaf → Prop where
  | leaf {active e scan p n kind?} (hscanner : e.scanner? caseSensitive = some scan)
    (hscan : scan p.skipTrivia.rest = some (n, kind?)) :
    Course g caseSensitive active (.element e) p (p.skipTrivia.advance n)
      [⟨e, p.skipTrivia, n, kind?⟩]
  | rule {active name id r p q leaves} (hactive : active < Recognition.maxRuleDepth)
    (hrule : g.rule? id = some r)
    (hbody : Course g caseSensitive (active + 1) (.alternatives r.alternatives) p q leaves) :
    Course g caseSensitive active (.element (.rule name id)) p q leaves
  | repeatedStops {active body p}
    (hbody : Peg g caseSensitive active (.element body) p none) :
    Course g caseSensitive active (.element (.repeated body)) p p []
  | repeatedRests {active body p q leaves}
    (hbody : Course g caseSensitive active (.element body) p q leaves)
    (hoffset : q.offset = p.offset) :
    Course g caseSensitive active (.element (.repeated body)) p q leaves
  | repeatedGoes {active body p q r leaves more}
    (hbody : Course g caseSensitive active (.element body) p q leaves)
    (hoffset : q.offset ≠ p.offset)
    (hrest : Course g caseSensitive active (.element (.repeated body)) q r more) :
    Course g caseSensitive active (.element (.repeated body)) p r (leaves ++ more)
  | optionalTaken {active body p q leaves}
    (hbody : Course g caseSensitive active (.element body) p q leaves) :
    Course g caseSensitive active (.element (.optional body)) p q leaves
  | optionalLeft {active body p}
    (hbody : Peg g caseSensitive active (.element body) p none) :
    Course g caseSensitive active (.element (.optional body)) p p []
  | notAhead {active body p}
    (hbody : Peg g caseSensitive active (.element body) p none) :
    Course g caseSensitive active (.element (.notAhead body)) p p []
  | choice {active sequences p q leaves}
    (hbody : Course g caseSensitive active (.alternatives sequences) p q leaves) :
    Course g caseSensitive active (.element (.choice sequences)) p q leaves
  | nil {active p} : Course g caseSensitive active (.sequence []) p p []
  | cons {active first rest p q r leaves more}
    (hfirst : Course g caseSensitive active (.element first) p q leaves)
    (hrest : Course g caseSensitive active (.sequence rest) q r more) :
    Course g caseSensitive active (.sequence (first :: rest)) p r (leaves ++ more)
  | firstMatches {active first rest p q leaves}
    (hfirst : Course g caseSensitive active (.sequence first) p q leaves) :
    Course g caseSensitive active (.alternatives (first :: rest)) p q leaves
  | firstFails {active first rest p q leaves}
    (hfirst : Peg g caseSensitive active (.sequence first) p none)
    (hrest : Course g caseSensitive active (.alternatives rest) p q leaves) :
    Course g caseSensitive active (.alternatives (first :: rest)) p q leaves

/-- `Uses g phrase e`: the phrase has the element `e` in itself or in a rule that it refers to, not
    counting lookaheads. -/
inductive Uses (g : Grammar) : Phrase → Element → Prop where
  | self {e} : Uses g (.element e) e
  | rule {name id r e} (hrule : g.rule? id = some r)
    (hbody : Uses g (.alternatives r.alternatives) e) : Uses g (.element (.rule name id)) e
  | repeated {body e} (hbody : Uses g (.element body) e) : Uses g (.element (.repeated body)) e
  | optional {body e} (hbody : Uses g (.element body) e) : Uses g (.element (.optional body)) e
  | choice {sequences e} (hbody : Uses g (.alternatives sequences) e) :
    Uses g (.element (.choice sequences)) e
  | head {first rest e} (hfirst : Uses g (.element first) e) : Uses g (.sequence (first :: rest)) e
  | tail {first rest e} (hrest : Uses g (.sequence rest) e) : Uses g (.sequence (first :: rest)) e
  | first {first rest e} (hfirst : Uses g (.sequence first) e) :
    Uses g (.alternatives (first :: rest)) e
  | later {first rest e} (hrest : Uses g (.alternatives rest) e) :
    Uses g (.alternatives (first :: rest)) e

/-! ## Leaves in order -/

namespace Leaf
variable {caseSensitive : Bool} {p q r : Position} {leaf : Leaf} {leaves more : List Leaf}

/-- An accepted leaf takes something, so its end is further on. -/
theorem Accepted.offset_lt (h : leaf.Accepted caseSensitive) :
    leaf.place.offset < leaf.finish.offset := by
  obtain ⟨scan, hscanner, hscan⟩ := h
  obtain ⟨hpos, hrest⟩ := Element.scanner_takes hscanner hscan
  exact Position.offset_lt_advance hpos hrest

theorem Between.reaches (h : Between p q leaves) : p.Reaches q := by
  induction leaves generalizing p with
  | nil => exact h
  | cons leaf rest ih =>
    obtain ⟨hplace, hrest⟩ := h
    have hfinish : leaf.place.Reaches leaf.finish := ⟨leaf.length, rfl⟩
    exact hplace.trans (hfinish.trans (ih hrest))

/-- Leaves up to a place and those from there on. -/
theorem Between.append (h : Between p q leaves) (h' : Between q r more) :
    Between p r (leaves ++ more) := by
  induction leaves generalizing p with
  | nil =>
    -- what leads to the place may lead on to the first leaf behind it
    have hpq : p.Reaches q := h
    cases more with
    | nil => exact hpq.trans h'
    | cons leaf more => exact ⟨hpq.trans h'.1, h'.2⟩
  | cons leaf rest ih => exact ⟨h.1, ih h.2⟩

/-- Every leaf stands between the two places. -/
theorem Between.of_mem (h : Between p q leaves) (hleaf : leaf ∈ leaves) :
    p.Reaches leaf.place ∧ leaf.finish.Reaches q := by
  induction leaves generalizing p with
  | nil => cases hleaf
  | cons first rest ih =>
    obtain ⟨hplace, hrest⟩ := h
    rcases List.mem_cons.mp hleaf with rfl | hleaf
    · exact ⟨hplace, hrest.reaches⟩
    · obtain ⟨hlater, hend⟩ := ih hrest hleaf
      have hfirst : first.place.Reaches first.finish := ⟨first.length, rfl⟩
      exact ⟨hplace.trans (hfirst.trans hlater), hend⟩

/-- Each leaf ends before the next ones begin. -/
theorem Between.pairwise (h : Between p q leaves) :
    leaves.Pairwise fun a b => a.finish.Reaches b.place := by
  induction leaves generalizing p with
  | nil => exact .nil
  | cons leaf rest ih =>
    obtain ⟨_, hrest⟩ := h
    exact .cons (fun later hlater => (hrest.of_mem hlater).1) (ih hrest)

end Leaf

/-! ## Courses and matches -/

section
variable {g : Grammar} {caseSensitive : Bool} {active : Nat} {phrase : Phrase} {p q : Position}
  {leaves : List Leaf}

/-- The tokens of a course that is one leaf. -/
theorem Position.leafTokens_eq (e : Element) (n : Nat) (kind? : Option Token.Kind) :
    p.leafTokens kind? = [Leaf.mk e p n kind?].filterMap Leaf.token? := by
  cases kind? <;> rfl

/-- A course is a match, and its leaves have the tokens. -/
theorem Course.peg (h : Course g caseSensitive active phrase p q leaves) :
    Peg g caseSensitive active phrase p (some (q, leaves.filterMap Leaf.token?)) := by
  induction h with
  | leaf hscanner hscan =>
    rw [← Position.leafTokens_eq]
    exact .leaf hscanner hscan
  | rule hactive hrule _ ih => exact .rule hactive hrule ih
  | repeatedStops hbody => exact .repeatedStops hbody
  | repeatedRests _ hoffset ih => exact .repeatedRests ih hoffset
  | repeatedGoes _ hoffset _ ihbody ihrest =>
    rw [List.filterMap_append]
    exact .repeatedGoes ihbody hoffset ihrest
  | optionalTaken _ ih => exact .optionalTaken ih
  | optionalLeft hbody => exact .optionalLeft hbody
  | notAhead hbody => exact .notAhead hbody
  | choice _ ih => exact .choice ih
  | nil => exact .nil
  | cons _ _ ihfirst ihrest =>
    rw [List.filterMap_append]
    exact .cons ihfirst ihrest
  | firstMatches _ ih => exact .firstMatches ih
  | firstFails hfirst _ ih => exact .firstFails hfirst ih

/-- A match has a course. -/
theorem Peg.exists_course {tokens : List Token}
    (h : Peg g caseSensitive active phrase p (some (q, tokens))) :
    ∃ leaves, Course g caseSensitive active phrase p q leaves ∧
      tokens = leaves.filterMap Leaf.token? := by
  -- the outcome is a variable of the induction, and failures have another one
  generalize ho : some (q, tokens) = outcome at h
  induction h generalizing q tokens with
  | leaf hscanner hscan =>
    cases ho
    exact ⟨_, .leaf hscanner hscan, Position.leafTokens_eq _ _ _⟩
  | leafFails _ _ | ruleMissing _ _ | ruleTooDeep _ | notAheadFails _ _ | consFails _ _
  | consFailsLater _ _ _ _ | noAlternative => cases ho
  | rule hactive hrule _ ih =>
    obtain ⟨leaves, hcourse, htokens⟩ := ih ho
    exact ⟨leaves, .rule hactive hrule hcourse, htokens⟩
  | repeatedStops hbody _ =>
    cases ho
    exact ⟨[], .repeatedStops hbody, rfl⟩
  | repeatedRests _ hoffset ih =>
    cases ho
    obtain ⟨leaves, hcourse, htokens⟩ := ih rfl
    exact ⟨leaves, .repeatedRests hcourse hoffset, htokens⟩
  | repeatedGoes _ hoffset _ ihbody ihrest =>
    cases ho
    obtain ⟨leaves, hcourse, rfl⟩ := ihbody rfl
    obtain ⟨more, hmore, rfl⟩ := ihrest rfl
    exact ⟨leaves ++ more, .repeatedGoes hcourse hoffset hmore, List.filterMap_append.symm⟩
  | optionalTaken _ ih =>
    obtain ⟨leaves, hcourse, htokens⟩ := ih ho
    exact ⟨leaves, .optionalTaken hcourse, htokens⟩
  | optionalLeft hbody _ =>
    cases ho
    exact ⟨[], .optionalLeft hbody, rfl⟩
  | notAhead hbody _ =>
    -- a lookahead lets a match go on only where its body fails, so it has no leaves
    cases ho
    exact ⟨[], .notAhead hbody, rfl⟩
  | choice _ ih =>
    obtain ⟨leaves, hcourse, htokens⟩ := ih ho
    exact ⟨leaves, .choice hcourse, htokens⟩
  | nil =>
    cases ho
    exact ⟨[], .nil, rfl⟩
  | cons _ _ ihfirst ihrest =>
    cases ho
    obtain ⟨leaves, hcourse, rfl⟩ := ihfirst rfl
    obtain ⟨more, hmore, rfl⟩ := ihrest rfl
    exact ⟨leaves ++ more, .cons hcourse hmore, List.filterMap_append.symm⟩
  | firstMatches _ ih =>
    obtain ⟨leaves, hcourse, htokens⟩ := ih ho
    exact ⟨leaves, .firstMatches hcourse, htokens⟩
  | firstFails hfirst _ _ ihrest =>
    obtain ⟨leaves, hcourse, htokens⟩ := ihrest ho
    exact ⟨leaves, .firstFails hfirst hcourse, htokens⟩

namespace Course

/-- The leaves of a course stand in order between its ends. -/
theorem between (h : Course g caseSensitive active phrase p q leaves) :
    Leaf.Between p q leaves := by
  induction h with
  | leaf _ _ => exact ⟨Position.reaches_skipTrivia _, .refl _⟩
  | rule _ _ _ ih | repeatedRests _ _ ih | optionalTaken _ ih | choice _ ih
  | firstMatches _ ih | firstFails _ _ ih => exact ih
  | repeatedStops _ | optionalLeft _ | notAhead _ | nil => exact .refl _
  | repeatedGoes _ _ _ ihbody ihrest => exact ihbody.append ihrest
  | cons _ _ ihfirst ihrest => exact ihfirst.append ihrest

/-- The leaves of a course are accepted where they stand. -/
theorem accepted (h : Course g caseSensitive active phrase p q leaves) :
    ∀ leaf ∈ leaves, leaf.Accepted caseSensitive := by
  induction h with
  | leaf hscanner hscan =>
    rw [List.forall_mem_singleton]
    exact ⟨_, hscanner, hscan⟩
  | rule _ _ _ ih | repeatedRests _ _ ih | optionalTaken _ ih | choice _ ih
  | firstMatches _ ih | firstFails _ _ ih => exact ih
  | repeatedStops _ | optionalLeft _ | notAhead _ | nil => simp
  | repeatedGoes _ _ _ ihbody ihrest => exact List.forall_mem_append.mpr ⟨ihbody, ihrest⟩
  | cons _ _ ihfirst ihrest => exact List.forall_mem_append.mpr ⟨ihfirst, ihrest⟩

/-- The leaves of a course are elements that the phrase uses. -/
theorem uses (h : Course g caseSensitive active phrase p q leaves) :
    ∀ leaf ∈ leaves, Uses g phrase leaf.element := by
  -- along the course the phrase is taken apart as `Uses` takes it apart
  induction h with
  | leaf _ _ => exact List.forall_mem_singleton.mpr .self
  | rule _ hrule _ ih => exact fun leaf hleaf => .rule hrule (ih leaf hleaf)
  | repeatedStops _ | optionalLeft _ | notAhead _ | nil => simp
  | repeatedRests _ _ ih => exact fun leaf hleaf => .repeated (ih leaf hleaf)
  | repeatedGoes _ _ _ ihbody ihrest =>
    exact List.forall_mem_append.mpr ⟨fun leaf hleaf => .repeated (ihbody leaf hleaf), ihrest⟩
  | optionalTaken _ ih => exact fun leaf hleaf => .optional (ih leaf hleaf)
  | choice _ ih => exact fun leaf hleaf => .choice (ih leaf hleaf)
  | cons _ _ ihfirst ihrest =>
    exact List.forall_mem_append.mpr ⟨fun leaf hleaf => .head (ihfirst leaf hleaf),
      fun leaf hleaf => .tail (ihrest leaf hleaf)⟩
  | firstMatches _ ih => exact fun leaf hleaf => .first (ih leaf hleaf)
  | firstFails _ _ ih => exact fun leaf hleaf => .later (ih leaf hleaf)

end Course
end
end Compositing
