import Compositing.Proofs.Recognition.Numbers
import Compositing.Proofs.Recognition.Spans
import Compositing.Proofs.Recognition.Typing

/-! # The numerals of a text

    A number token of a statement has the value of the numeral that stands
    where the token begins.  There is only one: an offset belongs to one place
    in a text, and at a place there is one longest numeral. -/

namespace Compositing

/-! ## One numeral -/

/-- There is one longest numeral. -/
theorem Number.IsLongestNumeral.unique {text numeral numeral' : List Char}
    (h : IsLongestNumeral text numeral) (h' : IsLongestNumeral text numeral') :
    numeral = numeral' := by
  have hle := h'.longest numeral h.begins h.isNumeral
  have hle' := h.longest numeral' h'.begins h'.isNumeral
  have hprefix := List.prefix_of_prefix_length_le h.begins h'.begins hle
  exact hprefix.eq_of_length (Nat.le_antisymm hle hle')

/-! ## Number tokens -/

/-- The literal is the longest numeral where the token begins in the text. -/
def Token.Spelled (text literal : List Char) (t : Token) : Prop :=
  ∃ before after, text = before ++ after ∧ t.offset = Text.byteLength before ∧
    Number.IsLongestNumeral after literal

/-- A leaf with a number takes the numeral that has its value. -/
theorem Leaf.Accepted.numeral {caseSensitive : Bool} {leaf : Leaf} {x : Number}
    (h : leaf.Accepted caseSensitive) (hkind : leaf.kind? = some (.number x)) :
    Number.IsLongestNumeral leaf.place.rest (leaf.place.rest.take leaf.length) ∧
      Number.read? Number.double (leaf.place.rest.take leaf.length) = some x := by
  obtain ⟨e, place, length, kind?⟩ := leaf
  obtain ⟨scan, hscanner, hscan⟩ := h
  cases hkind
  cases e with
  | number name =>
    cases hscanner
    obtain ⟨⟨n, y⟩, hnumber, hresult⟩ := Option.map_eq_some_iff.mp hscan
    cases hresult
    obtain ⟨hlength, hread⟩ := Scan.number_eq_some_iff.mp hnumber
    exact ⟨Number.isLongestNumeral_of_scan hlength, hread⟩
  | terminal text emits token =>
    cases hscanner
    obtain ⟨_, _, hresult⟩ := Option.map_eq_some_iff.mp hscan
    cases emits <;> cases token <;> cases hresult
  | label name =>
    cases hscanner
    obtain ⟨⟨_, _⟩, _, hresult⟩ := Option.map_eq_some_iff.mp hscan
    cases hresult
  | run chars negated =>
    cases hscanner
    obtain ⟨⟨_, _⟩, _, hresult⟩ := Option.map_eq_some_iff.mp hscan
    cases hresult
  | _ => cases hscanner

namespace Language
variable {α : Type} {l : Language α} {text : List Char} {s : Statement} {t : Token} {x : Number}

/-- A number token of a statement has the value of the numeral where it begins. -/
theorem exists_spelled (hs : Event.statement s ∈ l.events text) (ht : t ∈ s.tokens)
    (hkind : t.kind = .number x) :
    ∃ literal, t.Spelled text literal ∧ Number.read? Number.double literal = some x := by
  obtain ⟨before, after, q, htext, _, _, hpeg⟩ := peg_of_mem_events hs
  obtain ⟨leaves, hcourse, htokens⟩ := hpeg.exists_course
  rw [htokens] at ht
  obtain ⟨leaf, hleaf, htoken⟩ := List.mem_filterMap.mp ht
  obtain ⟨kind, hsome, rfl⟩ := Option.map_eq_some_iff.mp htoken
  cases hkind
  obtain ⟨hnumeral, hread⟩ := (hcourse.accepted leaf hleaf).numeral hsome
  obtain ⟨passed, rest, rfl, hplace⟩ := (hcourse.between.of_mem hleaf).1.exists_passed
  have hrest : leaf.place.rest = rest := congrArg Position.rest hplace
  rw [hrest] at hnumeral hread
  refine ⟨_, ⟨before ++ passed, rest, ?_, congrArg Position.offset hplace, hnumeral⟩, hread⟩
  rw [htext, List.append_assoc]

/-- So the literal that a number token is spelled by has its value. -/
theorem read_of_spelled (hs : Event.statement s ∈ l.events text) (ht : t ∈ s.tokens)
    (hkind : t.kind = .number x) {literal : List Char} (hspelled : t.Spelled text literal) :
    Number.read? Number.double literal = some x := by
  obtain ⟨literal', ⟨before', after', htext', hoffset', hlongest'⟩, hread⟩ :=
    exists_spelled hs ht hkind
  obtain ⟨before, after, htext, hoffset, hlongest⟩ := hspelled
  obtain ⟨rfl, rfl⟩ := Position.append_inj_of_byteLength (htext.symm.trans htext')
    (hoffset.symm.trans hoffset')
  rw [hlongest.unique hlongest']
  exact hread

end Language
end Compositing
