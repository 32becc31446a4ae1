import Compositing.Proofs.Grammar.Faults
import Compositing.Proofs.Grammar.Linking
import Compositing.Proofs.Grammar.Refusals

/-! # Terminals that emit

    A terminal emits a token unless it is silent or stands inside a lookahead.
    Linking asks for a keyword for each terminal that emits, in the order of
    the text, and gives it the id of that keyword; all else is left as it is.
    Whether linking succeeds, and with what grammar, depends on texts only, so
    a linked grammar may be linked again to other keywords. -/

namespace Compositing

/-! ## Texts that are emitted -/

namespace Element

mutual

/-- The texts of the terminals that emit, in order.  Nothing inside a lookahead does. -/
def emitted : Element → List String
  | .terminal text true _ => [text]
  | .repeated body => emitted body
  | .optional body => emitted body
  | .choice alternatives => alternativesEmitted alternatives
  | _ => []

def sequenceEmitted : List Element → List String
  | [] => []
  | element :: rest => emitted element ++ sequenceEmitted rest

def alternativesEmitted : List (List Element) → List String
  | [] => []
  | sequence :: rest => sequenceEmitted sequence ++ alternativesEmitted rest

end
end Element

/-- The name of a rule and the texts that it emits. -/
def Rule.emitted (r : Rule) : Grammar.Part := (r.name, Element.alternativesEmitted r.alternatives)

/-- The lexicon has a keyword with this text, up to case where case does not count. -/
def Lexicon.Has {α : Type} (lexicon : Lexicon α) (text : String) : Prop :=
  ∃ entry ∈ lexicon.entries, lexicon.key entry.text = lexicon.key text

/-- What is looked up is found unless no keyword has the text. -/
theorem Lexicon.isNone_lookup {α : Type} (lexicon : Lexicon α) (text : String) :
    (lexicon.lookup text).isNone = false ↔ lexicon.Has text := by
  rw [Option.isNone_eq_false_iff, lookup, List.find?_isSome]
  simp only [beq_iff_eq, Has]

open Grammar

variable {α : Type} {lexicon : Lexicon α}

/-! ## What linking does -/

/-- `Links lexicon phrase linked`: `linked` is the phrase with the ids of their keywords at the
    terminals that emit. -/
inductive Links (lexicon : Lexicon α) : (phrase linked : Phrase) → Prop where
  | emitting {text token entry} (hentry : lexicon.lookup text = some entry) :
    Links lexicon (.element (.terminal text true token))
      (.element (.terminal text true (some entry.id)))
  | silent {text token} :
    Links lexicon (.element (.terminal text false token)) (.element (.terminal text false token))
  -- the body of a lookahead is not entered
  | notAhead {body} : Links lexicon (.element (.notAhead body)) (.element (.notAhead body))
  | rule {name id} : Links lexicon (.element (.rule name id)) (.element (.rule name id))
  | number {name} : Links lexicon (.element (.number name)) (.element (.number name))
  | label {name} : Links lexicon (.element (.label name)) (.element (.label name))
  | run {chars negated} :
    Links lexicon (.element (.run chars negated)) (.element (.run chars negated))
  | repeated {body body'} (hbody : Links lexicon (.element body) (.element body')) :
    Links lexicon (.element (.repeated body)) (.element (.repeated body'))
  | optional {body body'} (hbody : Links lexicon (.element body) (.element body')) :
    Links lexicon (.element (.optional body)) (.element (.optional body'))
  | choice {body body'} (hbody : Links lexicon (.alternatives body) (.alternatives body')) :
    Links lexicon (.element (.choice body)) (.element (.choice body'))
  | nil : Links lexicon (.sequence []) (.sequence [])
  | cons {first first' rest rest'} (hfirst : Links lexicon (.element first) (.element first'))
    (hrest : Links lexicon (.sequence rest) (.sequence rest')) :
    Links lexicon (.sequence (first :: rest)) (.sequence (first' :: rest'))
  | none : Links lexicon (.alternatives []) (.alternatives [])
  | some {first first' rest rest'} (hfirst : Links lexicon (.sequence first) (.sequence first'))
    (hrest : Links lexicon (.alternatives rest) (.alternatives rest')) :
    Links lexicon (.alternatives (first :: rest)) (.alternatives (first' :: rest'))

/-- The grammar has the rules of `g` in their order, each linked, and the same start. -/
structure Grammar.IsLinkOf (lexicon : Lexicon α) (g linked : Grammar) : Prop where
  start : linked.start = g.start
  rules : List.Forall₂ (fun r r' => r'.name = r.name ∧
    Links lexicon (.alternatives r.alternatives) (.alternatives r'.alternatives))
    g.rules linked.rules

mutual

theorem links_of_linkElement (e : Element) {linked : Element}
    (h : linkElement lexicon e = .ok linked) : Links lexicon (.element e) (.element linked) := by
  cases e with
  | terminal text emits token =>
    cases emits with
    | true =>
      rw [linkElement] at h
      split at h
      · rename_i entry hentry
        cases h
        exact .emitting hentry
      · cases h
    | false =>
      rw [linkElement] at h
      · cases h
        exact .silent
      all_goals nofun
  | repeated body =>
    rw [linkElement] at h
    obtain ⟨body', hbody, rfl⟩ := ok_of_map h
    exact .repeated (links_of_linkElement body hbody)
  | optional body =>
    rw [linkElement] at h
    obtain ⟨body', hbody, rfl⟩ := ok_of_map h
    exact .optional (links_of_linkElement body hbody)
  | choice alternatives =>
    rw [linkElement] at h
    obtain ⟨alternatives', halternatives, rfl⟩ := ok_of_map h
    exact .choice (links_of_linkAlternatives alternatives halternatives)
  | rule _ _ | notAhead _ | number _ | label _ | run _ _ =>
    rw [linkElement] at h
    · cases h
      constructor
    all_goals nofun

theorem links_of_linkSequence (elements : List Element) {linked : List Element}
    (h : linkSequence lexicon elements = .ok linked) :
    Links lexicon (.sequence elements) (.sequence linked) := by
  cases elements with
  | nil =>
    rw [linkSequence] at h
    cases h
    exact .nil
  | cons e rest =>
    obtain ⟨e', rest', he, hrest, rfl⟩ := linkSequence_cons h
    exact .cons (links_of_linkElement e he) (links_of_linkSequence rest hrest)

theorem links_of_linkAlternatives (alternatives : List (List Element))
    {linked : List (List Element)} (h : linkAlternatives lexicon alternatives = .ok linked) :
    Links lexicon (.alternatives alternatives) (.alternatives linked) := by
  cases alternatives with
  | nil =>
    rw [linkAlternatives] at h
    cases h
    exact .none
  | cons sequence rest =>
    obtain ⟨sequence', rest', hsequence, hrest, rfl⟩ := linkAlternatives_cons h
    exact .some (links_of_linkSequence sequence hsequence) (links_of_linkAlternatives rest hrest)

end

/-- Linking makes one phrase of the other. -/
def Phrase.LinksTo (lexicon : Lexicon α) : (phrase linked : Phrase) → Prop
  | .element e, .element linked => linkElement lexicon e = .ok linked
  | .sequence elements, .sequence linked => linkSequence lexicon elements = .ok linked
  | .alternatives sequences, .alternatives linked =>
    linkAlternatives lexicon sequences = .ok linked
  | _, _ => False

/-- There is one way to link a phrase. -/
theorem Links.linksTo {phrase linked : Phrase} (h : Links lexicon phrase linked) :
    phrase.LinksTo lexicon linked := by
  induction h with
  -- the keyword is found again, and what is not entered is handed back
  | emitting hentry => simp only [Phrase.LinksTo, linkElement, hentry]
  | silent | notAhead | rule | number | label | run =>
    simp only [Phrase.LinksTo, linkElement]
  | repeated _ ih | optional _ ih | choice _ ih =>
    simp only [Phrase.LinksTo] at ih
    simp only [Phrase.LinksTo, linkElement, ih, Except.map]
  | nil => simp only [Phrase.LinksTo, linkSequence]
  | cons _ _ ihFirst ihRest =>
    simp only [Phrase.LinksTo] at ihFirst ihRest
    simp only [Phrase.LinksTo, linkSequence, ihFirst, ihRest, Except.map]
  | none => simp only [Phrase.LinksTo, linkAlternatives]
  | some _ _ ihFirst ihRest =>
    simp only [Phrase.LinksTo] at ihFirst ihRest
    simp only [Phrase.LinksTo, linkAlternatives, ihFirst, ihRest, Except.map]

/-- A rule is linked if its alternatives are. -/
theorem linkRule_eq_ok {r linked : Rule} :
    linkRule lexicon r = .ok linked ↔ linked.name = r.name ∧
      Links lexicon (.alternatives r.alternatives) (.alternatives linked.alternatives) := by
  constructor
  · intro h
    unfold linkRule at h
    split at h
    · rename_i alternatives halternatives
      cases h
      exact ⟨rfl, links_of_linkAlternatives r.alternatives halternatives⟩
    · cases h
  · intro h
    obtain ⟨hname, hlinks⟩ := h
    have hlinked : linkAlternatives lexicon r.alternatives = .ok linked.alternatives :=
      hlinks.linksTo
    simp only [linkRule, hlinked, ← hname]

/-- A grammar is linked rule by rule. -/
theorem link_eq_ok {g linked : Grammar} :
    g.link lexicon = .ok linked ↔ g.IsLinkOf lexicon linked := by
  have hrules : ∀ rules, g.rules.mapM (linkRule lexicon) = .ok rules ↔
      List.Forall₂ (fun r r' => r'.name = r.name ∧
        Links lexicon (.alternatives r.alternatives) (.alternatives r'.alternatives))
        g.rules rules := by
    intro rules
    simp only [mapM_eq_ok, linkRule_eq_ok]
  constructor
  · intro h
    obtain ⟨rules, hlinked, rfl⟩ := ok_of_map h
    exact ⟨rfl, (hrules rules).mp hlinked⟩
  · intro h
    rw [link, (hrules linked.rules).mpr h.rules, Except.map, ← h.start]

/-! ## What linking refuses -/

mutual

theorem refusal?_linkElement (e : Element) :
    refusal? (linkElement lexicon e) =
      e.emitted.find? fun text => (lexicon.lookup text).isNone := by
  cases e with
  | terminal text emits token =>
    cases emits with
    | true =>
      rw [linkElement, Element.emitted, List.find?_singleton]
      cases lexicon.lookup text <;> rfl
    | false =>
      -- a silent terminal asks for no keyword
      rw [linkElement, Element.emitted]
      · rfl
      all_goals nofun
  | repeated body =>
    rw [linkElement, Element.emitted, refusal?_map, refusal?_linkElement body]
  | optional body =>
    rw [linkElement, Element.emitted, refusal?_map, refusal?_linkElement body]
  | choice alternatives =>
    rw [linkElement, Element.emitted, refusal?_map, refusal?_linkAlternatives alternatives]
  | rule _ _ | notAhead _ | number _ | label _ | run _ _ =>
    -- nor does anything inside a lookahead
    rw [linkElement, Element.emitted]
    · rfl
    all_goals nofun

theorem refusal?_linkSequence (elements : List Element) :
    refusal? (linkSequence lexicon elements) =
      (Element.sequenceEmitted elements).find? fun text => (lexicon.lookup text).isNone := by
  cases elements with
  | nil =>
    rw [linkSequence, Element.sequenceEmitted]
    rfl
  | cons e rest =>
    rw [linkSequence, Element.sequenceEmitted, List.find?_append, ← refusal?_linkElement e,
      ← refusal?_linkSequence rest, ← refusal?_cons]
    cases linkElement lexicon e <;> rfl

theorem refusal?_linkAlternatives (alternatives : List (List Element)) :
    refusal? (linkAlternatives lexicon alternatives) =
      (Element.alternativesEmitted alternatives).find? fun text =>
        (lexicon.lookup text).isNone := by
  cases alternatives with
  | nil =>
    rw [linkAlternatives, Element.alternativesEmitted]
    rfl
  | cons sequence rest =>
    rw [linkAlternatives, Element.alternativesEmitted, List.find?_append,
      ← refusal?_linkSequence sequence, ← refusal?_linkAlternatives rest, ← refusal?_cons]
    cases linkSequence lexicon sequence <;> rfl

end

/-- A grammar is refused for the first text that it emits and the lexicon does not have. -/
theorem refusal?_link (g : Grammar) :
    refusal? (g.link lexicon) = (g.rules.map Rule.emitted).findSome? fun part =>
      (part.2.find? fun text => (lexicon.lookup text).isNone).map (.unknownTerminal part.1) := by
  rw [link, refusal?_map, refusal?_mapM, List.findSome?_map]
  congr 1
  funext r
  rw [Function.comp_apply, Rule.emitted, ← refusal?_linkAlternatives, linkRule]
  cases linkAlternatives lexicon r.alternatives <;> rfl

namespace Grammar

/-- Linking is exact.  It succeeds if every text that some rule emits is a keyword, and otherwise
    reports the first that is not, with its rule.  It gives their ids to the terminals that emit
    and changes nothing else, and linking once more is linking for the first time. -/
theorem links_exactly {α : Type} (lexicon : Lexicon α) (g : Grammar) :
    ((∃ linked, g.link lexicon = .ok linked) ↔
      ∀ part ∈ g.rules.map Rule.emitted, ∀ text ∈ part.2, lexicon.Has text) ∧
    (∀ e, g.link lexicon = .error e ↔ ∃ name text,
      IsFirstBad lexicon.Has (g.rules.map Rule.emitted) name text ∧
        e = .unknownTerminal name text) ∧
    (∀ linked, g.link lexicon = .ok linked ↔ g.IsLinkOf lexicon linked) ∧
    ∀ linked, g.link lexicon = .ok linked →
      ∀ {β : Type} (other : Lexicon β), linked.link other = g.link other := by
  refine ⟨?_, ?_, fun linked => link_eq_ok, ?_⟩
  · rw [← refusal?_eq_none, refusal?_link]
    exact find_parts_eq_none _ lexicon.isNone_lookup
  · intro e
    rw [← refusal?_eq_some, refusal?_link]
    exact find_parts_eq_some _ lexicon.isNone_lookup
  · intro linked hlinked β other
    exact link_linked other hlinked

end Grammar
end Compositing
