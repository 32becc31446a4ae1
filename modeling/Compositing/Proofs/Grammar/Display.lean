import Compositing.Proofs.Grammar.Drafting
import Compositing.Proofs.Grammar.Lexing

/-! # Displayed grammars

    A grammar is displayed as the symbols it was read from, each spelled out,
    with white space between some of them.  So the display is cut into the
    same symbols, and these make the same grammar.

    Linking touches token ids only, which are not displayed. -/

namespace Compositing

namespace Element

mutual

/-- The texts of the classes of characters to include. -/
def inclusions : Element → List String
  | .run chars false => [chars]
  | .repeated body => inclusions body
  | .optional body => inclusions body
  | .notAhead body => inclusions body
  | .choice alternatives => alternativesInclusions alternatives
  | _ => []

def sequenceInclusions : List Element → List String
  | [] => []
  | element :: rest => inclusions element ++ sequenceInclusions rest

def alternativesInclusions : List (List Element) → List String
  | [] => []
  | sequence :: rest => sequenceInclusions sequence ++ alternativesInclusions rest

end

mutual

/-- The element without token ids. -/
def unlinked : Element → Element
  | .terminal text emits _ => .terminal text emits none
  | .repeated body => .repeated (unlinked body)
  | .optional body => .optional (unlinked body)
  | .notAhead body => .notAhead (unlinked body)
  | .choice alternatives => .choice (alternativesUnlinked alternatives)
  | other => other

def sequenceUnlinked : List Element → List Element
  | [] => []
  | element :: rest => unlinked element :: sequenceUnlinked rest

def alternativesUnlinked : List (List Element) → List (List Element)
  | [] => []
  | sequence :: rest => sequenceUnlinked sequence :: alternativesUnlinked rest

end

end Element

namespace Grammar

/-- The texts of the classes of characters to include, in all rules. -/
def inclusions (g : Grammar) : List String :=
  g.rules.flatMap fun rule => Element.alternativesInclusions rule.alternatives

/-- The grammar without token ids. -/
def unlinked (g : Grammar) : Grammar :=
  { g with rules := g.rules.map fun rule =>
      { rule with alternatives := Element.alternativesUnlinked rule.alternatives } }

open Element Draft

/-! ## Groups -/

/-- A group is displayed as its alternatives. -/
theorem display_groupBody (body : List (List Element)) :
    (groupBody body).display = displayAlternatives body := by
  unfold groupBody
  split
  · simp only [displayAlternatives, displaySequence]
  · simp only [Element.display]

theorem inclusions_groupBody (body : List (List Element)) :
    (groupBody body).inclusions = alternativesInclusions body := by
  unfold groupBody
  split
  · simp only [alternativesInclusions, sequenceInclusions, List.append_nil]
  · simp only [Element.inclusions]

theorem unlinked_groupBody {body : List (List Element)}
    (h : alternativesUnlinked body = body) : (groupBody body).unlinked = groupBody body := by
  unfold groupBody
  split
  · simpa [alternativesUnlinked, sequenceUnlinked] using h
  · simp only [Element.unlinked, h]

/-- The brackets of a group are spelled around its alternatives. -/
theorem spelled_group {symbols : List Symbol} {text : String} (opener closer : Symbol)
    (h : Spelled symbols text.toList) :
    Spelled (opener :: (symbols ++ [closer]))
      (opener.spelling ++ (text.toList ++ closer.spelling)) :=
  .symbol opener (h.append (.single closer))

/-! ## Results -/

/-- A result that was mapped. -/
theorem ok_of_map {β γ ε : Type} {x : Except ε β} {make : β → γ} {result : γ}
    (h : x.map make = .ok result) : ∃ body, x = .ok body ∧ result = make body := by
  cases x with
  | error error => cases h
  | ok body =>
    cases h
    exact ⟨body, rfl, rfl⟩

/-- A result in front of others. -/
theorem cons_of_bind {β ε : Type} {x : Except ε β} {xs : Except ε (List β)} {result : List β}
    (h : (x.bind fun a => xs.map (a :: ·)) = .ok result) :
    ∃ a as, x = .ok a ∧ xs = .ok as ∧ result = a :: as := by
  cases x with
  | error error => cases h
  | ok a =>
    obtain ⟨as, rfl, rfl⟩ := ok_of_map h
    exact ⟨a, as, rfl, rfl, rfl⟩

/-! ## What was resolved -/

section
variable {ids : String → Option Nat}

/-- What a resolved list is made of. -/
theorem resolveSequence_cons {d : Draft} {rest : List Draft} {elements : List Element}
    (h : resolveSequence ids (d :: rest) = .ok elements) :
    ∃ e es, resolve ids d = .ok e ∧ resolveSequence ids rest = .ok es ∧ elements = e :: es := by
  refine cons_of_bind (Eq.trans ?_ h)
  rw [resolveSequence]
  cases resolve ids d <;> rfl

theorem resolveAlternatives_cons {sequence : List Draft} {rest : List (List Draft)}
    {alternatives : List (List Element)}
    (h : resolveAlternatives ids (sequence :: rest) = .ok alternatives) :
    ∃ elements others, resolveSequence ids sequence = .ok elements ∧
      resolveAlternatives ids rest = .ok others ∧ alternatives = elements :: others := by
  refine cons_of_bind (Eq.trans ?_ h)
  rw [resolveAlternatives]
  cases resolveSequence ids sequence <;> rfl

/-- What is known of an element that was resolved from a draft. -/
structure Shows (symbols : List Symbol) (text : String) (texts : List String) : Prop where
  spelled : Spelled symbols text.toList
  inclusions : ∀ chars, Symbol.includeClass chars ∈ symbols → chars ∈ texts

theorem Shows.group {symbols : List Symbol} {text : String} {texts : List String}
    (h : Shows symbols text texts) (group : Group) {shown : String}
    (hshown : shown.toList = group.opener.spelling ++ (text.toList ++ group.closer.spelling)) :
    Shows (group.opener :: (symbols ++ [group.closer])) shown texts := by
  refine ⟨hshown ▸ spelled_group _ _ h.spelled, fun chars hmem => h.inclusions chars ?_⟩
  have hopener : Symbol.includeClass chars ≠ group.opener := by cases group <;> nofun
  have hcloser : Symbol.includeClass chars ≠ group.closer := by cases group <;> nofun
  simpa [hopener, hcloser] using hmem

/-- A bar or nothing between two parts, and white space around it. -/
theorem Shows.append {symbols symbols' : List Symbol} {text text' : String}
    {texts texts' : List String} (h : Shows symbols text texts) (h' : Shows symbols' text' texts')
    {between : List Symbol} {gap : List Char} (hgap : Spelled between gap)
    (hbetween : ∀ s ∈ between, s = .or) {shown : String}
    (hshown : shown.toList = text.toList ++ (gap ++ text'.toList)) :
    Shows (symbols ++ (between ++ symbols')) shown (texts ++ texts') := by
  refine ⟨hshown ▸ h.spelled.append (hgap.append h'.spelled), fun chars hmem => ?_⟩
  rcases List.mem_append.mp hmem with hmem | hmem
  · exact List.mem_append_left _ (h.inclusions chars hmem)
  · rcases List.mem_append.mp hmem with hmem | hmem
    · cases hbetween _ hmem
    · exact List.mem_append_right _ (h'.inclusions chars hmem)

/-- An element that is one symbol. -/
theorem shows_symbol {s : Symbol} {e : Element} (hdisplay : e.display.toList = s.spelling)
    (hinclusions : ∀ chars, s = .includeClass chars → chars ∈ e.inclusions) :
    Shows [s] e.display e.inclusions := by
  refine ⟨hdisplay ▸ .single s, fun chars hmem => hinclusions chars ?_⟩
  exact (List.mem_singleton.mp hmem).symm

/-- A group is displayed as the symbols it was read from if its alternatives are. -/
theorem shows_wrap (group : Group) {body : List (List Draft)} {e : Element}
    (h : resolve ids (group.wrap body) = .ok e)
    (hbody : ∀ {alternatives}, resolveAlternatives ids body = .ok alternatives →
      Shows (alternativesSymbols body) (displayAlternatives alternatives)
          (alternativesInclusions alternatives) ∧
        alternativesUnlinked alternatives = alternatives) :
    Shows (group.wrap body).symbols e.display e.inclusions ∧ e.unlinked = e := by
  rw [Group.symbols_wrap]
  cases group <;>
  · rw [Group.wrap, resolve] at h
    obtain ⟨alternatives, hresolved, rfl⟩ := ok_of_map h
    obtain ⟨hshows, hunlinked⟩ := hbody hresolved
    refine ⟨?_, by rw [Element.unlinked, unlinked_groupBody hunlinked]⟩
    rw [Element.inclusions, inclusions_groupBody]
    refine hshows.group _ ?_
    simp [Element.display, display_groupBody, Group.opener, Group.closer, Symbol.spelling]

mutual

/-- An element is displayed as the symbols it was read from, and has no token id. -/
theorem shows_of_resolve (d : Draft) {e : Element} (h : resolve ids d = .ok e) :
    Shows d.symbols e.display e.inclusions ∧ e.unlinked = e := by
  cases d with
  | terminal text emits =>
    rw [resolve] at h
    cases h
    refine ⟨?_, by simp only [Element.unlinked]⟩
    cases emits with
    | true =>
      rw [Draft.symbols]
      exact shows_symbol (by simp [Element.display, payload, Symbol.spelling]) nofun
    | false =>
      rw [Draft.symbols]
      exact shows_symbol (by simp [Element.display, payload, Symbol.spelling]) nofun
  | rule name =>
    rw [resolve] at h
    split at h
    · cases h
      refine ⟨?_, by simp only [Element.unlinked]⟩
      rw [Draft.symbols]
      exact shows_symbol (by simp [Element.display, Symbol.spelling]) nofun
    · cases h
  | number name | label name =>
    rw [resolve] at h
    cases h
    refine ⟨?_, by simp only [Element.unlinked]⟩
    rw [Draft.symbols]
    exact shows_symbol (by simp [Element.display, Symbol.spelling]) nofun
  | run chars negated =>
    rw [resolve] at h
    cases h
    refine ⟨?_, by simp only [Element.unlinked]⟩
    cases negated with
    | true =>
      rw [Draft.symbols]
      exact shows_symbol (by simp [Element.display, payload, Symbol.spelling]) nofun
    | false =>
      rw [Draft.symbols]
      refine shows_symbol (by simp [Element.display, payload, Symbol.spelling]) ?_
      rintro _ ⟨_⟩
      simp [Element.inclusions]
  | repeated body => exact shows_wrap .repeated h fun hbody => alternatives_shows body hbody
  | optional body => exact shows_wrap .optional h fun hbody => alternatives_shows body hbody
  | notAhead body => exact shows_wrap .notAhead h fun hbody => alternatives_shows body hbody

theorem sequence_shows (drafts : List Draft) {elements : List Element}
    (h : resolveSequence ids drafts = .ok elements) :
    Shows (sequenceSymbols drafts) (displaySequence elements) (sequenceInclusions elements) ∧
      sequenceUnlinked elements = elements := by
  cases drafts with
  | nil =>
    rw [resolveSequence] at h
    cases h
    exact ⟨⟨.nil, by simp [sequenceSymbols]⟩, by rw [sequenceUnlinked]⟩
  | cons d rest =>
    obtain ⟨e, es, he, hes, rfl⟩ := resolveSequence_cons h
    obtain ⟨hfirst, hfirst'⟩ := shows_of_resolve d he
    obtain ⟨hrest, hrest'⟩ := sequence_shows rest hes
    refine ⟨?_, by rw [sequenceUnlinked, hfirst', hrest']⟩
    rw [sequenceSymbols, sequenceInclusions]
    cases es with
    | nil => exact hfirst.append hrest .nil (by simp) (by simp [displaySequence])
    | cons next es =>
      exact hfirst.append hrest (.gap (c := ' ') (by decide) .nil) (by simp)
        (by simp [displaySequence])

theorem alternatives_shows (drafts : List (List Draft)) {alternatives : List (List Element)}
    (h : resolveAlternatives ids drafts = .ok alternatives) :
    Shows (alternativesSymbols drafts) (displayAlternatives alternatives)
        (alternativesInclusions alternatives) ∧
      alternativesUnlinked alternatives = alternatives := by
  cases drafts with
  | nil =>
    rw [resolveAlternatives] at h
    cases h
    exact ⟨⟨.nil, by simp [alternativesSymbols]⟩, by rw [alternativesUnlinked]⟩
  | cons sequence rest =>
    obtain ⟨elements, others, helements, hothers, rfl⟩ := resolveAlternatives_cons h
    obtain ⟨hfirst, hfirst'⟩ := sequence_shows sequence helements
    obtain ⟨hrest, hrest'⟩ := alternatives_shows rest hothers
    refine ⟨?_, by rw [alternativesUnlinked, hfirst', hrest']⟩
    rw [alternativesInclusions]
    cases rest with
    | nil =>
      rw [resolveAlternatives] at hothers
      cases hothers
      have hshown : (displaySequence elements).toList =
          (displaySequence elements).toList ++ ([] ++ (displayAlternatives []).toList) := by
        simp [displayAlternatives]
      have hlast := hfirst.append hrest .nil (by simp) hshown
      simpa [alternativesSymbols, displayAlternatives] using hlast
    | cons next rest =>
      obtain ⟨nextElements, others, _, _, rfl⟩ := resolveAlternatives_cons hothers
      have hbar : Spelled [.or] [' ', '|', ' '] :=
        .gap (by decide) (.symbol .or (.gap (by decide) .nil))
      rw [alternativesSymbols]
      · exact hfirst.append hrest hbar (by simp) (by simp [displayAlternatives])
      · nofun

end

/-! ## Rules -/

theorem shows_of_resolveRule {d : RuleDraft} {rule : Rule} (h : resolveRule ids d = .ok rule) :
    Shows d.symbols rule.display (alternativesInclusions rule.alternatives) ∧
      alternativesUnlinked rule.alternatives = rule.alternatives := by
  unfold resolveRule at h
  split at h
  · rename_i alternatives hbody
    cases h
    obtain ⟨hshows, hunlinked⟩ := alternatives_shows d.alternatives hbody
    refine ⟨⟨?_, ?_⟩, hunlinked⟩
    · have hheader : Spelled [.rule d.name, .define] ('<' :: (d.name.toList ++ "> ::= ".toList)) := by
        have hdefine : Spelled [.define] "::= ".toList :=
          .symbol .define (.gap (by decide) .nil)
        have hrule := Spelled.symbol (.rule d.name) (.gap (c := ' ') (by decide) hdefine)
        simpa [Symbol.spelling] using hrule
      have hspelled := hheader.append hshows.spelled
      simpa [RuleDraft.symbols, Rule.display] using hspelled
    · intro chars hmem
      refine hshows.inclusions chars ?_
      simpa [RuleDraft.symbols] using hmem
  · cases h

/-- A grammar is displayed as the symbols of its rules, and has no token ids. -/
theorem shows_of_resolveAll {drafts : List RuleDraft} {rules : List Rule}
    (h : drafts.mapM (resolveRule ids) = .ok rules) (start : Nat) :
    Shows (drafts.flatMap RuleDraft.symbols) (Grammar.display ⟨rules, start⟩)
        (Grammar.inclusions ⟨rules, start⟩) ∧
      Grammar.unlinked ⟨rules, start⟩ = ⟨rules, start⟩ := by
  induction drafts generalizing rules with
  | nil =>
    cases h
    exact ⟨⟨.nil, by simp⟩, rfl⟩
  | cons d drafts ih =>
    obtain ⟨rule, others, hrule, hothers, rfl⟩ := mapM_cons_ok.mp h
    obtain ⟨hfirst, hfirst'⟩ := shows_of_resolveRule hrule
    obtain ⟨hrest, hrest'⟩ := ih hothers
    constructor
    · rw [List.flatMap_cons, Grammar.inclusions, List.flatMap_cons]
      cases others with
      | nil => exact hfirst.append hrest .nil (by simp) (by simp [Grammar.display])
      | cons next others =>
        exact hfirst.append hrest (.gap (c := '\n') (by decide) .nil) (by simp)
          (by simp [Grammar.display])
    · have hrules := congrArg Grammar.rules hrest'
      simp only [Grammar.unlinked] at hrules ⊢
      rw [List.map_cons, hfirst', hrules]

end

/-! ## Linking -/

section
variable {α : Type} {lexicon : Lexicon α}

/-- A linked list is made of linked items. -/
theorem linkSequence_cons {e : Element} {rest linked : List Element}
    (h : linkSequence lexicon (e :: rest) = .ok linked) :
    ∃ e' rest', linkElement lexicon e = .ok e' ∧ linkSequence lexicon rest = .ok rest' ∧
      linked = e' :: rest' := by
  refine cons_of_bind (Eq.trans ?_ h)
  rw [linkSequence]
  cases linkElement lexicon e <;> rfl

theorem linkAlternatives_cons {sequence : List Element} {rest linked : List (List Element)}
    (h : linkAlternatives lexicon (sequence :: rest) = .ok linked) :
    ∃ sequence' rest', linkSequence lexicon sequence = .ok sequence' ∧
      linkAlternatives lexicon rest = .ok rest' ∧ linked = sequence' :: rest' := by
  refine cons_of_bind (Eq.trans ?_ h)
  rw [linkAlternatives]
  cases linkSequence lexicon sequence <;> rfl

mutual

/-- Linking an element changes token ids only. -/
theorem display_linkElement (e : Element) {linked : Element}
    (h : linkElement lexicon e = .ok linked) :
    linked.display = e.display ∧ linked.unlinked = e.unlinked := by
  cases e with
  | terminal text emits token =>
    cases emits with
    | true =>
      rw [linkElement] at h
      split at h
      · cases h
        simp [Element.display, Element.unlinked]
      · cases h
    | false =>
      rw [linkElement] at h
      · cases h
        exact ⟨rfl, rfl⟩
      all_goals nofun
  | repeated body =>
    rw [linkElement] at h
    obtain ⟨body', hbody, rfl⟩ := ok_of_map h
    obtain ⟨hdisplay, hunlinked⟩ := display_linkElement body hbody
    simp only [Element.display, Element.unlinked, hdisplay, hunlinked, and_self]
  | optional body =>
    rw [linkElement] at h
    obtain ⟨body', hbody, rfl⟩ := ok_of_map h
    obtain ⟨hdisplay, hunlinked⟩ := display_linkElement body hbody
    simp only [Element.display, Element.unlinked, hdisplay, hunlinked, and_self]
  | choice alternatives =>
    rw [linkElement] at h
    obtain ⟨alternatives', halternatives, rfl⟩ := ok_of_map h
    obtain ⟨hdisplay, hunlinked⟩ := display_linkAlternatives alternatives halternatives
    simp only [Element.display, Element.unlinked, hdisplay, hunlinked, and_self]
  | rule _ _ | notAhead _ | number _ | label _ | run _ _ =>
    rw [linkElement] at h
    · cases h
      exact ⟨rfl, rfl⟩
    all_goals nofun

theorem display_linkSequence (elements : List Element) {linked : List Element}
    (h : linkSequence lexicon elements = .ok linked) :
    displaySequence linked = displaySequence elements ∧
      sequenceUnlinked linked = sequenceUnlinked elements := by
  cases elements with
  | nil =>
    rw [linkSequence] at h
    cases h
    exact ⟨rfl, rfl⟩
  | cons e rest =>
    obtain ⟨e', rest', he, hrest, rfl⟩ := linkSequence_cons h
    obtain ⟨hdisplay, hunlinked⟩ := display_linkElement e he
    obtain ⟨hdisplays, hunlinkeds⟩ := display_linkSequence rest hrest
    refine ⟨?_, by simp only [sequenceUnlinked, hunlinked, hunlinkeds]⟩
    cases rest with
    | nil =>
      rw [linkSequence] at hrest
      cases hrest
      simp only [displaySequence, hdisplay]
    | cons next rest =>
      obtain ⟨next', rest', _, _, rfl⟩ := linkSequence_cons hrest
      simp only [displaySequence, hdisplay]
      rw [hdisplays]

theorem display_linkAlternatives (alternatives : List (List Element))
    {linked : List (List Element)} (h : linkAlternatives lexicon alternatives = .ok linked) :
    displayAlternatives linked = displayAlternatives alternatives ∧
      alternativesUnlinked linked = alternativesUnlinked alternatives := by
  cases alternatives with
  | nil =>
    rw [linkAlternatives] at h
    cases h
    exact ⟨rfl, rfl⟩
  | cons sequence rest =>
    obtain ⟨sequence', rest', hsequence, hrest, rfl⟩ := linkAlternatives_cons h
    obtain ⟨hdisplay, hunlinked⟩ := display_linkSequence sequence hsequence
    obtain ⟨hdisplays, hunlinkeds⟩ := display_linkAlternatives rest hrest
    refine ⟨?_, by simp only [alternativesUnlinked, hunlinked, hunlinkeds]⟩
    cases rest with
    | nil =>
      rw [linkAlternatives] at hrest
      cases hrest
      simp only [displayAlternatives, hdisplay]
    | cons next rest =>
      obtain ⟨next', rest', _, _, rfl⟩ := linkAlternatives_cons hrest
      simp only [displayAlternatives, hdisplay]
      rw [hdisplays]

end

theorem display_linkRule {rule linked : Rule} (h : linkRule lexicon rule = .ok linked) :
    linked.display = rule.display ∧ linked.name = rule.name ∧
      alternativesUnlinked linked.alternatives = alternativesUnlinked rule.alternatives := by
  unfold linkRule at h
  split at h
  · rename_i alternatives halternatives
    cases h
    obtain ⟨hdisplay, hunlinked⟩ := display_linkAlternatives rule.alternatives halternatives
    exact ⟨by simp only [Rule.display, hdisplay], rfl, hunlinked⟩
  · cases h

/-- Linking a grammar changes token ids only. -/
theorem display_linkRules {rules linked : List Rule}
    (h : rules.mapM (linkRule lexicon) = .ok linked) (start : Nat) :
    linked.map Rule.display = rules.map Rule.display ∧
      Grammar.unlinked ⟨linked, start⟩ = Grammar.unlinked ⟨rules, start⟩ := by
  induction rules generalizing linked with
  | nil =>
    cases h
    exact ⟨rfl, rfl⟩
  | cons rule rules ih =>
    obtain ⟨rule', rest', hrule, hrest, rfl⟩ := mapM_cons_ok.mp h
    obtain ⟨hdisplay, hname, hunlinked⟩ := display_linkRule hrule
    obtain ⟨hdisplays, hunlinkeds⟩ := ih hrest
    have hrules := congrArg Grammar.rules hunlinkeds
    simp only [Grammar.unlinked] at hrules ⊢
    rw [List.map_cons, List.map_cons, List.map_cons, List.map_cons, hdisplay, hdisplays, hname,
      hunlinked, hrules]
    exact ⟨rfl, rfl⟩

end

/-! ## Round trip -/

theorem mapError_bind_ok_iff {ε ε' α β : Type} {x : Except ε α} {f : ε → ε'}
    {next : α → Except ε' β} {b : β} :
    x.mapError f >>= next = .ok b ↔ ∃ a, x = .ok a ∧ next a = .ok b := by
  cases x with
  | error error => exact ⟨nofun, nofun⟩
  | ok a => exact ⟨fun h => ⟨a, rfl, h⟩, fun ⟨_, ha, h⟩ => Except.ok.inj ha ▸ h⟩

/-- A text that compiles is cut, read and resolved. -/
theorem compile_ok_iff {text start : String} {g : Grammar} :
    compile text start = .ok g ↔ ∃ placed drafts, Symbol.ofText? text.toList = .ok placed ∧
      RuleDraft.ofSymbols? placed = .ok drafts ∧ ofDrafts drafts start = .ok g := by
  unfold compile drafts?
  cases Symbol.ofText? text.toList with
  | error stray => simp [bind, Except.bind]
  | ok placed =>
    show (RuleDraft.ofSymbols? placed).mapError GrammarError.malformedRule >>= _ = .ok g ↔ _
    rw [mapError_bind_ok_iff]
    simp

/-- The rules of a grammar are those of its drafts, resolved. -/
theorem rules_of_ofDrafts {drafts : List RuleDraft} {start : String} {g : Grammar}
    (h : ofDrafts drafts start = .ok g) :
    ∃ ids, drafts.mapM (resolveRule ids) = .ok g.rules := by
  unfold ofDrafts at h
  simp only at h
  split at h
  · cases h
  · split at h
    · cases h
    · obtain ⟨rules, hrules, rfl⟩ := ok_of_map h
      exact ⟨_, hrules⟩

/-- A grammar that was compiled, none of whose classes of characters to include begins with `!` or
    `?`, is compiled again from its display; and it is displayed alike if it is linked before. -/
theorem compile_display {text start : String} {g : Grammar} (h : compile text start = .ok g)
    (hplain : ∀ chars ∈ g.inclusions,
      chars.toList.head? ≠ some '!' ∧ chars.toList.head? ≠ some '?') :
    compile g.display start = .ok g.unlinked ∧
      ∀ {α : Type} (lexicon : Lexicon α) (linked : Grammar), g.link lexicon = .ok linked →
        linked.display = g.display ∧ linked.unlinked = g.unlinked := by
  constructor
  · obtain ⟨placed, drafts, hplaced, hdrafts, hgrammar⟩ := compile_ok_iff.mp h
    obtain ⟨ids, hrules⟩ := rules_of_ofDrafts hgrammar
    obtain ⟨hshows, hunlinked⟩ := shows_of_resolveAll hrules g.start
    -- the symbols of the display are those of the text
    rw [← symbols_ofSymbols hdrafts] at hshows
    have hcut : ∀ s ∈ placed.map (·.symbol), s.IsCut := by
      rw [List.forall_mem_map]
      exact isCut_of_scanAll hplaced
    have hplain : ∀ s ∈ placed.map (·.symbol), s.IsPlain := by
      intro s hs
      cases s with
      | includeClass chars => exact hplain chars (hshows.inclusions chars hs)
      | _ => trivial
    obtain ⟨placed', hplaced', hsame⟩ := scanAll_spelled hshows.spelled hcut hplain 0 1
    obtain ⟨drafts', hdrafts', hcontent⟩ := ofSymbols_congr hdrafts hsame
    have hunlinked : g.unlinked = g := hunlinked
    rw [hunlinked]
    exact compile_ok_iff.mpr
      ⟨placed', drafts', hplaced', hdrafts', (ofDrafts_congr hcontent start).trans hgrammar⟩
  · intro α lexicon linked hlink
    obtain ⟨rules, hrules, rfl⟩ := ok_of_map hlink
    obtain ⟨hdisplay, hunlinked⟩ := display_linkRules hrules g.start
    exact ⟨congrArg ("\n".intercalate ·) hdisplay, hunlinked⟩

/-- A grammar with groups in each other and characters that have to be escaped. -/
theorem compile_display_groups :
    let text := "<A> ::= \x7b 'it\\'s' | -'\\\\' <#n> \x7d [ (a\\)) ] (?! (!\\n) ) <A>"
    ∃ g, compile text "A" = .ok g ∧ g.inclusions = ["a)"] ∧
      compile g.display "A" = .ok g.unlinked := by
  intro text
  have hinclusions : (compile text "A").toOption.map inclusions = some ["a)"] := by
    decide +kernel
  cases hcompiles : compile text "A" with
  | error error =>
    rw [hcompiles] at hinclusions
    cases hinclusions
  | ok g =>
    rw [hcompiles] at hinclusions
    have hinclusions : g.inclusions = ["a)"] := Option.some.inj hinclusions
    have hplain : ∀ chars ∈ g.inclusions,
        chars.toList.head? ≠ some '!' ∧ chars.toList.head? ≠ some '?' := by
      rw [hinclusions]
      decide
    exact ⟨g, rfl, hinclusions, (compile_display hcompiles hplain).1⟩

end Grammar
end Compositing
