import Compositing.Proofs.Grammar.Linking
import Compositing.Proofs.Language.Cutting
import Compositing.Proofs.Language.Registering
import Compositing.Proofs.Recognition.Regions

/-! # Tokens are well typed

    In a language whose keywords were registered and whose grammar was compiled
    against them, each leaf of a matched statement has the token that its
    element promises: a literal that emits has the id of its keyword, which is
    not reserved, a number or label has its value, and a silent literal has
    nothing.  So what an id stands for is known from the id: no number or label
    can pass for a keyword, let alone begin an action. -/

namespace Compositing

/-- What a leaf is, and the token it has. -/
inductive Leaf.Typed {α : Type} (lexicon : Lexicon α) : Leaf → Prop where
  | keyword {text entry place length} (hlookup : lexicon.lookup text = some entry)
    (hid : entry.id < Token.reservedBase) :
    Typed lexicon ⟨.terminal text true (some entry.id), place, length, some (.keyword entry.id)⟩
  | silent {text token place length} :
    Typed lexicon ⟨.terminal text false token, place, length, none⟩
  | number {name x place length} :
    Typed lexicon ⟨.number name, place, length, some (.number x)⟩
  | label {name s place length} :
    Typed lexicon ⟨.label name, place, length, some (.label s)⟩
  | run {chars negated s place length} :
    Typed lexicon ⟨.run chars negated, place, length, some (.label s)⟩

variable {α : Type} {lexicon : Lexicon α}

/-- A linked leaf that is accepted has the token that its element promises. -/
theorem Leaf.Accepted.typed {caseSensitive : Bool} {leaf : Leaf}
    (h : leaf.Accepted caseSensitive) (hconsistent : lexicon.IsConsistent)
    (hlinked : (Phrase.element leaf.element).IsLinked lexicon) : leaf.Typed lexicon := by
  obtain ⟨e, place, length, kind?⟩ := leaf
  obtain ⟨scan, hscanner, hscan⟩ := h
  cases e with
  | terminal text emits token =>
    cases hscanner
    obtain ⟨n, _, hresult⟩ := Option.map_eq_some_iff.mp hscan
    cases hresult
    cases emits with
    | true =>
      obtain ⟨entry, hlookup, rfl⟩ := hlinked.token_of_terminal
      have hentry := (Lexicon.of_lookup hlookup).1
      exact .keyword hlookup (hconsistent.unreserved entry hentry)
    | false => exact .silent
  | number name =>
    cases hscanner
    obtain ⟨⟨n, x⟩, _, hresult⟩ := Option.map_eq_some_iff.mp hscan
    cases hresult
    exact .number
  | label name =>
    cases hscanner
    obtain ⟨⟨n, s⟩, _, hresult⟩ := Option.map_eq_some_iff.mp hscan
    cases hresult
    exact .label
  | run chars negated =>
    cases hscanner
    obtain ⟨⟨n, s⟩, _, hresult⟩ := Option.map_eq_some_iff.mp hscan
    cases hresult
    exact .run
  | _ => cases hscanner

/-! ## Actions -/

/-- Only a keyword can have an action: the ids of numbers and labels are reserved. -/
theorem Token.keyword_of_action? (hconsistent : lexicon.IsConsistent) {t : Token}
    (haction : (lexicon.action? t.id).isSome) :
    ∃ id < Token.reservedBase, t.kind = .keyword id := by
  have hlt := hconsistent.id_lt_of_action? haction
  obtain ⟨kind, offset, line⟩ := t
  cases kind with
  | keyword id => exact ⟨id, hlt, rfl⟩
  | number x => exact absurd hlt (Nat.lt_irrefl _)
  | label s => exact absurd hlt (by decide : ¬ Token.labelId < Token.reservedBase)

/-! ## Statements -/

namespace Language

/-- A match between two parts of a text. -/
theorem peg_of_matched {l : Language α} {before after : List Char}
    (h : (l.outcomeBetween before after).matched = true) :
    Peg l.grammar l.lexicon.caseSensitive 0 (.element l.grammar.statement)
      (.between before after)
      (some ((l.outcomeBetween before after).position,
        (l.outcomeBetween before after).tokens)) := by
  rw [← recognizer_between] at h ⊢
  obtain ⟨outcome, hpeg, hreports⟩ := Recognition.reports_recognize l.grammar
    l.lexicon.caseSensitive l.grammar.statement (.between before after)
    (Position.between before after).offset
  have hmatched : (l.recognizer (.between before after)).matched = outcome.isSome :=
    hreports.matched
  have hposition : (l.recognizer (.between before after)).position = _ := hreports.position
  have htokens : (l.recognizer (.between before after)).tokens = _ := hreports.tokens
  rw [hmatched] at h
  obtain ⟨⟨q, tokens⟩, rfl⟩ := Option.isSome_iff_exists.mp h
  rw [hposition, htokens]
  exact hpeg

/-- A statement of a text is matched where it begins. -/
theorem peg_of_mem_events {l : Language α} {text : List Char} {s : Statement}
    (h : Event.statement s ∈ l.events text) :
    ∃ before after q, text = before ++ after ∧ s.offset = Text.byteLength before ∧
      s.line = 1 + Text.newlines before ∧
      Peg l.grammar l.lexicon.caseSensitive 0 (.element l.grammar.statement)
        (.between before after) (some (q, s.tokens)) := by
  obtain ⟨regions, ending, hevents, _, _, htext, _, hregions⟩ := l.exists_regions_events text
  rw [hevents] at h
  obtain ⟨r, hr, hevent⟩ := List.mem_map.mp h
  obtain ⟨front, rest, hsplit⟩ := List.append_of_mem hr
  have htells := (hregions front r rest hsplit).event
  rw [hevent] at htells
  obtain ⟨hmatched, _, rfl⟩ := htells
  refine ⟨_, _, _, ?_, rfl, rfl, peg_of_matched hmatched⟩
  rw [htext, hsplit]
  simp [Region.text]

/-- In a language of registered keywords the tokens of a statement are well typed.  They are those
    of the leaves that matching it took, lookaheads apart, and each leaf has the token that its
    element promises, so no literal that emits is dropped.  Only a keyword, whose id is not
    reserved, can have an action, and so each unit begins with one. -/
theorem tokens_typed (hlexicon : lexicon.Registered) {name bnf start : String} {l : Language α}
    (hcompile : Language.compile name bnf start lexicon = .ok l) {text : List Char}
    {s : Statement} (hs : Event.statement s ∈ l.events text) :
    (∃ before after, text = before ++ after ∧ s.offset = Text.byteLength before ∧
      s.line = 1 + Text.newlines before ∧
      (∃ q leaves, Course l.grammar lexicon.caseSensitive 0 (.element l.grammar.statement)
        (.between before after) q leaves) ∧
      ∀ q leaves, Course l.grammar lexicon.caseSensitive 0 (.element l.grammar.statement)
          (.between before after) q leaves →
        s.tokens = leaves.filterMap Leaf.token? ∧ ∀ leaf ∈ leaves, leaf.Typed lexicon) ∧
    (∀ t : Token, (lexicon.action? t.id).isSome →
      ∃ id < Token.reservedBase, t.kind = .keyword id) ∧
    (∀ u ∈ (ActionUnit.cut lexicon.action? s.tokens).2,
      ∃ id < Token.reservedBase, u.token.kind = .keyword id) := by
  have hconsistent := hlexicon.isConsistent
  obtain ⟨g, hlinked, rfl⟩ := Grammar.ok_of_map hcompile
  have hg : g.link lexicon = .ok g := Grammar.linked_of_compileLinked hlinked
  refine ⟨?_, fun t => Token.keyword_of_action? hconsistent, ?_⟩
  · obtain ⟨before, after, q, htext, hoffset, hline, hpeg⟩ := peg_of_mem_events hs
    refine ⟨before, after, htext, hoffset, hline, ?_, ?_⟩
    · obtain ⟨leaves, hcourse, _⟩ := hpeg.exists_course
      exact ⟨q, leaves, hcourse⟩
    · intro q' leaves hcourse
      constructor
      · -- the statement has the tokens of every course, since a phrase has one outcome
        have hsame := hpeg.deterministic hcourse.peg
        exact congrArg Prod.snd (Option.some.inj hsame)
      · intro leaf hleaf
        have hlinked := (hcourse.uses leaf hleaf).isLinked hg (Grammar.isLinked_statement hg)
        exact (hcourse.accepted leaf hleaf).typed hconsistent hlinked
  · intro u hu
    have haction := ActionUnit.action?_of_mem_cut hu
    exact Token.keyword_of_action? hconsistent (by rw [haction]; rfl)

/-- A keyword that is looked out for before a name. -/
theorem tokens_typed_pass :
    let lexicon : Lexicon Unit := ⟨false, [⟨"pass", 7, some (), false⟩]⟩
    let tokens : List Token := [⟨.keyword 7, 0, 1⟩, ⟨.label "Bloom", 5, 1⟩]
    let bnf := "<Pass> ::= 'pass' (?! 'pass') <@name>"
    ∃ l, Language.compile "passes" bnf "Pass" lexicon = .ok l ∧
      .statement ⟨tokens, 0, 1⟩ ∈ l.events "PASS Bloom".toList ∧
      ∃ leaves : List Leaf, tokens = leaves.filterMap Leaf.token? ∧
        ∀ leaf ∈ leaves, leaf.Typed lexicon := by
  intro lexicon tokens bnf
  have hpass : (Lexicon.empty false).register "pass" 7 (some ()) = .ok lexicon := by rfl
  have hregistered : lexicon.Registered := .register (.empty false) hpass
  have hevents :
      (Language.compile "passes" bnf "Pass" lexicon).toOption.map
        (·.events "PASS Bloom".toList) = some [.statement ⟨tokens, 0, 1⟩] := by
    decide +kernel
  cases hcompile : Language.compile "passes" bnf "Pass" lexicon with
  | error error =>
    rw [hcompile] at hevents
    cases hevents
  | ok l =>
    rw [hcompile] at hevents
    have hevents : l.events "PASS Bloom".toList = [.statement ⟨tokens, 0, 1⟩] :=
      Option.some.inj hevents
    have hmem : .statement ⟨tokens, 0, 1⟩ ∈ l.events "PASS Bloom".toList := by
      rw [hevents]
      exact List.mem_singleton.mpr rfl
    obtain ⟨⟨before, after, _, _, _, ⟨q, leaves, hcourse⟩, hall⟩, _⟩ :=
      tokens_typed hregistered hcompile hmem
    exact ⟨l, rfl, hmem, leaves, hall q leaves hcourse⟩

end Language
end Compositing
