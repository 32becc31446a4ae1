import Compositing.Proofs.Grammar.Display
import Compositing.Proofs.Recognition.Course

/-! # Linked grammars

    Linking again starts afresh.  So a linked grammar is linked to itself, and
    to be linked is to be left alone by linking.  Every element that can be a
    leaf of a match of a linked grammar is linked, whatever rules lead to it:
    the body of a lookahead is left as it is, but a lookahead takes no leaf. -/

namespace Compositing
namespace Grammar
variable {α : Type} {lexicon : Lexicon α}

/-! ## Linking again -/

section
variable {β : Type} (other : Lexicon β)

mutual

/-- Linking does not look at the ids that are there, so a linked element is linked as the one it
    comes from. -/
theorem linkElement_linked (e : Element) {linked : Element}
    (h : linkElement lexicon e = .ok linked) :
    linkElement other linked = linkElement other e := by
  cases e with
  | terminal text emits token =>
    cases emits with
    | true =>
      -- the id is written over, and the text is what is looked up both times
      rw [linkElement] at h
      split at h
      · cases h
        rw [linkElement, linkElement]
      · cases h
    | false =>
      rw [linkElement] at h
      · cases h
        rfl
      all_goals nofun
  | repeated body =>
    rw [linkElement] at h
    obtain ⟨body', hbody, rfl⟩ := ok_of_map h
    have hsame := linkElement_linked body hbody
    rw [linkElement, linkElement, hsame]
  | optional body =>
    rw [linkElement] at h
    obtain ⟨body', hbody, rfl⟩ := ok_of_map h
    have hsame := linkElement_linked body hbody
    rw [linkElement, linkElement, hsame]
  | choice alternatives =>
    rw [linkElement] at h
    obtain ⟨alternatives', halternatives, rfl⟩ := ok_of_map h
    have hsame := linkAlternatives_linked alternatives halternatives
    rw [linkElement, linkElement, hsame]
  | rule _ _ | notAhead _ | number _ | label _ | run _ _ =>
    -- left as it is, the body of a lookahead included
    rw [linkElement] at h
    · cases h
      rfl
    all_goals nofun

theorem linkSequence_linked (elements : List Element) {linked : List Element}
    (h : linkSequence lexicon elements = .ok linked) :
    linkSequence other linked = linkSequence other elements := by
  cases elements with
  | nil =>
    rw [linkSequence] at h
    cases h
    rfl
  | cons e rest =>
    obtain ⟨e', rest', he, hrest, rfl⟩ := linkSequence_cons h
    have hfirst := linkElement_linked e he
    have hothers := linkSequence_linked rest hrest
    rw [linkSequence, linkSequence, hfirst, hothers]

theorem linkAlternatives_linked (alternatives : List (List Element))
    {linked : List (List Element)} (h : linkAlternatives lexicon alternatives = .ok linked) :
    linkAlternatives other linked = linkAlternatives other alternatives := by
  cases alternatives with
  | nil =>
    rw [linkAlternatives] at h
    cases h
    rfl
  | cons sequence rest =>
    obtain ⟨sequence', rest', hsequence, hrest, rfl⟩ := linkAlternatives_cons h
    have hfirst := linkSequence_linked sequence hsequence
    have hothers := linkAlternatives_linked rest hrest
    rw [linkAlternatives, linkAlternatives, hfirst, hothers]

end

theorem linkRule_linked {rule linked : Rule} (h : linkRule lexicon rule = .ok linked) :
    linkRule other linked = linkRule other rule := by
  unfold linkRule at h
  split at h
  · rename_i alternatives halternatives
    cases h
    have hsame := linkAlternatives_linked other rule.alternatives halternatives
    simp only [linkRule, hsame]
  · cases h

theorem linkRules_linked {rules linked : List Rule}
    (h : rules.mapM (linkRule lexicon) = .ok linked) :
    linked.mapM (linkRule other) = rules.mapM (linkRule other) := by
  induction rules generalizing linked with
  | nil =>
    cases h
    rfl
  | cons rule rules ih =>
    obtain ⟨rule', rest, hrule, hrest, rfl⟩ := mapM_cons_ok.mp h
    rw [List.mapM_cons, List.mapM_cons, linkRule_linked other hrule, ih hrest]

/-- A linked grammar is linked as the one it comes from. -/
theorem link_linked {g linked : Grammar} (h : g.link lexicon = .ok linked) :
    linked.link other = g.link other := by
  obtain ⟨rules, hrules, rfl⟩ := ok_of_map h
  rw [link, link, linkRules_linked other hrules]

end

/-- What compiling and linking a text leads to is linked. -/
theorem linked_of_compileLinked {text start : String} {g : Grammar}
    (h : compileLinked lexicon text start = .ok g) : g.link lexicon = .ok g := by
  unfold compileLinked at h
  cases hcompile : compile text start with
  | error error =>
    rw [hcompile] at h
    cases h
  | ok unlinked =>
    rw [hcompile] at h
    exact (link_linked lexicon h).trans h

end Grammar

/-! ## Parts of what is linked -/

open Grammar

variable {α : Type} {lexicon : Lexicon α}

/-- Linking leaves the phrase as it is. -/
def Phrase.IsLinked (lexicon : Lexicon α) : Phrase → Prop
  | .element e => linkElement lexicon e = .ok e
  | .sequence elements => linkSequence lexicon elements = .ok elements
  | .alternatives sequences => linkAlternatives lexicon sequences = .ok sequences

namespace Phrase.IsLinked

theorem of_repeated {body : Element} (h : (Phrase.element (.repeated body)).IsLinked lexicon) :
    (Phrase.element body).IsLinked lexicon := by
  obtain ⟨body', hbody, hsame⟩ := ok_of_map h
  cases hsame
  exact hbody

theorem of_optional {body : Element} (h : (Phrase.element (.optional body)).IsLinked lexicon) :
    (Phrase.element body).IsLinked lexicon := by
  obtain ⟨body', hbody, hsame⟩ := ok_of_map h
  cases hsame
  exact hbody

theorem of_choice {sequences : List (List Element)}
    (h : (Phrase.element (.choice sequences)).IsLinked lexicon) :
    (Phrase.alternatives sequences).IsLinked lexicon := by
  obtain ⟨sequences', hsequences, hsame⟩ := ok_of_map h
  cases hsame
  exact hsequences

theorem of_cons {first : Element} {rest : List Element}
    (h : (Phrase.sequence (first :: rest)).IsLinked lexicon) :
    (Phrase.element first).IsLinked lexicon ∧ (Phrase.sequence rest).IsLinked lexicon := by
  obtain ⟨first', rest', hfirst, hrest, hsame⟩ := linkSequence_cons h
  cases hsame
  exact ⟨hfirst, hrest⟩

theorem of_alternatives {first : List Element} {rest : List (List Element)}
    (h : (Phrase.alternatives (first :: rest)).IsLinked lexicon) :
    (Phrase.sequence first).IsLinked lexicon ∧ (Phrase.alternatives rest).IsLinked lexicon := by
  obtain ⟨first', rest', hfirst, hrest, hsame⟩ := linkAlternatives_cons h
  cases hsame
  exact ⟨hfirst, hrest⟩

/-- A literal that can emit has the id of its keyword. -/
theorem token_of_terminal {text : String} {token : Option Nat}
    (h : (Phrase.element (.terminal text true token)).IsLinked lexicon) :
    ∃ entry, lexicon.lookup text = some entry ∧ token = some entry.id := by
  rw [IsLinked, linkElement] at h
  split at h
  · rename_i entry hlookup
    cases h
    exact ⟨entry, hlookup, rfl⟩
  · cases h

end Phrase.IsLinked

/-- Items that are left alone as a list are left alone one by one. -/
theorem Grammar.ok_of_mapM_self {β ε : Type} {f : β → Except ε β} {items : List β}
    (h : items.mapM f = .ok items) : ∀ item ∈ items, f item = .ok item := by
  induction items with
  | nil => simp
  | cons first rest ih =>
    obtain ⟨first', rest', hfirst, hrest, hsame⟩ := mapM_cons_ok.mp h
    cases hsame
    exact List.forall_mem_cons.mpr ⟨hfirst, ih hrest⟩

/-- The rules of a linked grammar are linked. -/
theorem Grammar.isLinked_rule {g : Grammar} (hg : g.link lexicon = .ok g) {id : Nat} {r : Rule}
    (hrule : g.rule? id = some r) : (Phrase.alternatives r.alternatives).IsLinked lexicon := by
  obtain ⟨rules, hrules, hsame⟩ := ok_of_map hg
  -- the rules as a list are left alone by linking, so each of them is
  have hself : g.rules.mapM (linkRule lexicon) = .ok g.rules := by
    rw [hrules, hsame]
  have hr := ok_of_mapM_self hself r (List.mem_of_getElem? hrule)
  unfold linkRule at hr
  split at hr
  · rename_i alternatives halternatives
    have hsame : alternatives = r.alternatives :=
      congrArg Rule.alternatives (Except.ok.inj hr)
    rwa [hsame] at halternatives
  · cases hr

/-- What a script of a linked grammar is a sequence of is linked. -/
theorem Grammar.isLinked_statement {g : Grammar} (hg : g.link lexicon = .ok g) :
    (Phrase.element g.statement).IsLinked lexicon := by
  unfold Grammar.statement
  split
  · rename_i name body hrule
    have hbody := (isLinked_rule hg hrule).of_alternatives.1
    exact hbody.of_cons.1.of_repeated
  · rfl
  · rfl

/-- What a linked phrase of a linked grammar uses is linked. -/
theorem Uses.isLinked {g : Grammar} {phrase : Phrase} {e : Element} (h : Uses g phrase e)
    (hg : g.link lexicon = .ok g) (hphrase : phrase.IsLinked lexicon) :
    (Phrase.element e).IsLinked lexicon := by
  -- on the way to the element a rule is linked with the grammar, any other part with its phrase
  induction h with
  | self => exact hphrase
  | rule hrule _ ih => exact ih (isLinked_rule hg hrule)
  | repeated _ ih => exact ih hphrase.of_repeated
  | optional _ ih => exact ih hphrase.of_optional
  | choice _ ih => exact ih hphrase.of_choice
  | head _ ih => exact ih hphrase.of_cons.1
  | tail _ ih => exact ih hphrase.of_cons.2
  | first _ ih => exact ih hphrase.of_alternatives.1
  | later _ ih => exact ih hphrase.of_alternatives.2

end Compositing
