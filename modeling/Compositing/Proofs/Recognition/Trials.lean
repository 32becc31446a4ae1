import Compositing.Proofs.Recognition.Peg
import Mathlib.Logic.Relation

/-! # Trials

    Matching a phrase tries its parts one after the other, each with the rules
    that are under way then and at the place that the parts before it lead to.
    So a match is a tree of trials, and what goes on in it is said of the trials
    that can be reached from its root.

    A reference to a rule is refused where too many rules are under way.  If
    this happens nowhere in a match, how many were under way at its root makes
    no difference.  It happens nowhere in a grammar of few rules that refer to
    later ones only. -/

namespace Compositing

/-! ## The tree of trials -/

/-- The trial of a phrase at a position, with rules under way, and outside of every lookahead or
    not. -/
structure Trial where
  active : Nat
  emitting : Bool
  phrase : Phrase
  position : Position

namespace Trial

/-- `Tries g caseSensitive t t'`: the trial `t'` of a part is the next or a later one in the
    course of the trial `t`. -/
inductive Tries (g : Grammar) (caseSensitive : Bool) : Trial → Trial → Prop where
  | rule {active emitting name id r p} (hactive : active < Recognition.maxRuleDepth)
    (hrule : g.rule? id = some r) :
    Tries g caseSensitive ⟨active, emitting, .element (.rule name id), p⟩
      ⟨active + 1, emitting, .alternatives r.alternatives, p⟩
  -- a round of a repetition, and the rounds after it
  | round {active emitting body p} :
    Tries g caseSensitive ⟨active, emitting, .element (.repeated body), p⟩
      ⟨active, emitting, .element body, p⟩
  | rounds {active emitting body p q tokens}
    (hbody : Peg g caseSensitive active (.element body) p (some (q, tokens)))
    (hoffset : q.offset ≠ p.offset) :
    Tries g caseSensitive ⟨active, emitting, .element (.repeated body), p⟩
      ⟨active, emitting, .element (.repeated body), q⟩
  | optional {active emitting body p} :
    Tries g caseSensitive ⟨active, emitting, .element (.optional body), p⟩
      ⟨active, emitting, .element body, p⟩
  | notAhead {active emitting body p} :
    Tries g caseSensitive ⟨active, emitting, .element (.notAhead body), p⟩
      ⟨active, false, .element body, p⟩
  | choice {active emitting sequences p} :
    Tries g caseSensitive ⟨active, emitting, .element (.choice sequences), p⟩
      ⟨active, emitting, .alternatives sequences, p⟩
  -- the first of a sequence, and what follows if it matches
  | first {active emitting first rest p} :
    Tries g caseSensitive ⟨active, emitting, .sequence (first :: rest), p⟩
      ⟨active, emitting, .element first, p⟩
  | following {active emitting first rest p q tokens}
    (hfirst : Peg g caseSensitive active (.element first) p (some (q, tokens))) :
    Tries g caseSensitive ⟨active, emitting, .sequence (first :: rest), p⟩
      ⟨active, emitting, .sequence rest, q⟩
  -- the first alternative, and the others if it fails
  | alternative {active emitting first rest p} :
    Tries g caseSensitive ⟨active, emitting, .alternatives (first :: rest), p⟩
      ⟨active, emitting, .sequence first, p⟩
  | others {active emitting first rest p}
    (hfirst : Peg g caseSensitive active (.sequence first) p none) :
    Tries g caseSensitive ⟨active, emitting, .alternatives (first :: rest), p⟩
      ⟨active, emitting, .alternatives rest, p⟩

/-- A reference to a rule is tried with too many rules under way. -/
def IsRefused (t : Trial) : Prop :=
  Recognition.maxRuleDepth ≤ t.active ∧ ∃ name id, t.phrase = .element (.rule name id)

/-- No reference to a rule is refused in the course of the trial. -/
def Unrefused (g : Grammar) (caseSensitive : Bool) (t : Trial) : Prop :=
  ∀ t', Relation.ReflTransGen (Tries g caseSensitive) t t' → ¬ t'.IsRefused

variable {g : Grammar} {caseSensitive : Bool}

/-- None is refused in the course of a part either. -/
theorem Unrefused.tries {t t' : Trial} (h : Unrefused g caseSensitive t)
    (htries : Tries g caseSensitive t t') : Unrefused g caseSensitive t' :=
  fun t'' hreach => h t'' (.head htries hreach)

end Trial

/-! ## Rules under way -/

/-- With fewer rules under way, a phrase in which no reference is refused has the same
    outcome. -/
theorem Peg.of_unrefused {g : Grammar} {caseSensitive : Bool} {active : Nat} {phrase : Phrase}
    {p : Position} {outcome : Option (Position × List Token)}
    (h : Peg g caseSensitive active phrase p outcome) {emitting : Bool}
    (hunrefused : Trial.Unrefused g caseSensitive ⟨active, emitting, phrase, p⟩) {fewer : Nat}
    (hfewer : fewer ≤ active) : Peg g caseSensitive fewer phrase p outcome := by
  -- every part of the phrase is tried in the course of the trial
  induction h generalizing emitting fewer with
  | leaf hscanner hscan => exact .leaf hscanner hscan
  | leafFails hscanner hscan => exact .leafFails hscanner hscan
  | rule hactive hrule _ ih =>
    have hbody := hunrefused.tries (.rule hactive hrule)
    exact .rule (by omega) hrule (ih hbody (by omega))
  | ruleMissing hactive hrule => exact .ruleMissing (by omega) hrule
  | ruleTooDeep hdeep => exact absurd ⟨hdeep, _, _, rfl⟩ (hunrefused _ .refl)
  | repeatedStops _ ih => exact .repeatedStops (ih (hunrefused.tries .round) hfewer)
  | repeatedRests _ hoffset ih =>
    exact .repeatedRests (ih (hunrefused.tries .round) hfewer) hoffset
  | repeatedGoes hbody hoffset _ ihbody ihrest =>
    have hrounds := hunrefused.tries (.rounds hbody hoffset)
    exact .repeatedGoes (ihbody (hunrefused.tries .round) hfewer) hoffset
      (ihrest hrounds hfewer)
  | optionalTaken _ ih => exact .optionalTaken (ih (hunrefused.tries .optional) hfewer)
  | optionalLeft _ ih => exact .optionalLeft (ih (hunrefused.tries .optional) hfewer)
  | notAhead _ ih => exact .notAhead (ih (hunrefused.tries .notAhead) hfewer)
  | notAheadFails _ ih => exact .notAheadFails (ih (hunrefused.tries .notAhead) hfewer)
  | choice _ ih => exact .choice (ih (hunrefused.tries .choice) hfewer)
  | nil => exact .nil
  | cons hfirst _ ihfirst ihrest =>
    have hrest := hunrefused.tries (.following hfirst)
    exact .cons (ihfirst (hunrefused.tries .first) hfewer) (ihrest hrest hfewer)
  | consFails _ ih => exact .consFails (ih (hunrefused.tries .first) hfewer)
  | consFailsLater hfirst _ ihfirst ihrest =>
    have hrest := hunrefused.tries (.following hfirst)
    exact .consFailsLater (ihfirst (hunrefused.tries .first) hfewer) (ihrest hrest hfewer)
  | noAlternative => exact .noAlternative
  | firstMatches _ ih => exact .firstMatches (ih (hunrefused.tries .alternative) hfewer)
  | firstFails hfirst _ ihfirst ihrest =>
    have hothers := hunrefused.tries (.others hfirst)
    exact .firstFails (ihfirst (hunrefused.tries .alternative) hfewer) (ihrest hothers hfewer)

/-! ## References -/

namespace Element

mutual

/-- The rules that an element refers to. -/
def references : Element → List Nat
  | .terminal .. | .number _ | .label _ | .run .. => []
  | .rule _ id => [id]
  | .repeated body | .optional body | .notAhead body => references body
  | .choice sequences => alternativesReferences sequences

/-- The rules that the elements of a sequence refer to. -/
def sequenceReferences : List Element → List Nat
  | [] => []
  | first :: rest => references first ++ sequenceReferences rest

/-- The rules that alternatives refer to. -/
def alternativesReferences : List (List Element) → List Nat
  | [] => []
  | first :: rest => sequenceReferences first ++ alternativesReferences rest

end

end Element

/-- The rules that a phrase refers to. -/
def Phrase.references : Phrase → List Nat
  | .element e => e.references
  | .sequence elements => Element.sequenceReferences elements
  | .alternatives sequences => Element.alternativesReferences sequences

/-- Every rule refers to rules behind it only. -/
def Grammar.RefersForward (g : Grammar) : Prop :=
  ∀ id r, g.rule? id = some r →
    ∀ id' ∈ Element.alternativesReferences r.alternatives, id < id' ∧ id' < g.rules.length

namespace Trial
variable {g : Grammar} {caseSensitive : Bool}

/-- The rules that are still referred to come behind as many as are under way. -/
def IsShallow (g : Grammar) (t : Trial) : Prop :=
  ∀ id ∈ t.phrase.references, t.active ≤ id ∧ id < g.rules.length

/-- A part of a phrase refers to rules that the phrase refers to, or to rules behind one. -/
theorem IsShallow.tries (hforward : g.RefersForward) {t t' : Trial} (h : t.IsShallow g)
    (htries : Tries g caseSensitive t t') : t'.IsShallow g := by
  cases htries with
  | @rule active _ _ id _ _ _ hrule =>
    intro id' hid'
    have hhere : active ≤ id ∧ id < g.rules.length := h id (List.mem_singleton_self id)
    have hbehind := hforward id _ hrule id' hid'
    show active + 1 ≤ id' ∧ id' < g.rules.length
    omega
  | round | rounds _ _ | optional | notAhead | choice => exact h
  | first | alternative => exact fun id hid => h id (List.mem_append_left _ hid)
  | following _ | others _ => exact fun id hid => h id (List.mem_append_right _ hid)

theorem IsShallow.reaches (hforward : g.RefersForward) {t t' : Trial} (h : t.IsShallow g)
    (hreach : Relation.ReflTransGen (Tries g caseSensitive) t t') : t'.IsShallow g := by
  induction hreach with
  | refl => exact h
  | tail _ htries ih => exact ih.tries hforward htries

/-- In a grammar of few rules that refer forward no reference is refused. -/
theorem unrefused_of_refersForward (hforward : g.RefersForward)
    (hlength : g.rules.length ≤ Recognition.maxRuleDepth) {t : Trial} (h : t.IsShallow g) :
    Unrefused g caseSensitive t := by
  intro t' hreach hrefused
  have hshallow := h.reaches hforward hreach
  obtain ⟨hdeep, name, id, hphrase⟩ := hrefused
  have hreference := hshallow id (by rw [hphrase]; exact List.mem_singleton_self id)
  omega

end Trial
end Compositing
