import Compositing.Proofs.Recognition.Agreement
import Compositing.Proofs.Recognition.Parsing
import Compositing.Proofs.Recognition.Regions

/-! # Texts written of statements

    A text that is written of statements, each of which is read whatever
    follows it, is cut into these statements and nothing else.  Every statement
    takes a character, so the characters of the text bound the statements. -/

namespace Compositing

variable {g : Grammar} {caseSensitive : Bool}

/-- The pieces ahead are the same after the gap in front of the first. -/
theorem Writes.at_skipTrivia {piece : Piece} {pieces : List Piece} {p : Position}
    (h : Writes caseSensitive (piece :: pieces) p.rest) :
    Writes caseSensitive (piece :: pieces) p.skipTrivia.rest ∧ p.skipTrivia.rest ≠ [] := by
  obtain ⟨spelling, after, hrest, hspelled, hafter⟩ := h.skipTrivia
  rw [hrest]
  constructor
  · have hpieces : Writes caseSensitive (piece :: pieces) ([] ++ (spelling ++ after)) :=
      .piece .nil hspelled hafter
    exact hpieces
  · intro hnil
    exact hspelled.ne_nil (List.append_eq_nil_iff.mp hnil).1

namespace Event

/-- The next event where a statement is read. -/
theorem next?_of_reads {piece : Piece} {pieces left : List Piece} {kinds : List Token.Kind}
    (hread : Reads g caseSensitive Recognition.maxRuleDepth (.element g.statement)
      (piece :: pieces) left kinds)
    (hleft : left.length < (piece :: pieces).length) {p : Position}
    (hp : Writes caseSensitive (piece :: pieces) p.rest) :
    ∃ statement q,
      next? (fun p => g.recognize caseSensitive g.statement p p.offset) p =
        some (.statement statement, q) ∧
      statement.tokens.map (·.kind) = kinds ∧ Writes caseSensitive left q.rest ∧
      q.rest.length < p.rest.length := by
  obtain ⟨hhere, hne⟩ := hp.at_skipTrivia
  obtain ⟨q, tokens, hpeg, hq, hkinds, hless⟩ := hread 0 (Nat.zero_add _) p.skipTrivia hhere
  -- what is reported is the one outcome of the statement, so it is what is read
  obtain ⟨outcome, hpeg', hreports⟩ :=
    Recognition.reports_recognize g caseSensitive g.statement p.skipTrivia p.skipTrivia.offset
  obtain rfl := hpeg.deterministic hpeg'
  have hshorter := hless hleft
  have hle := (Position.reaches_skipTrivia p).length_le
  have hatEnd : p.skipTrivia.atEnd = false := by
    simpa [Position.atEnd] using hne
  -- a statement counts only where it ends behind its beginning
  have hforward : p.skipTrivia.offset < q.offset := by
    obtain ⟨n, rfl⟩ := hpeg.reaches
    have hne := hpeg.reaches.offset_ne hshorter
    rw [Position.advance_offset] at hne ⊢
    omega
  refine ⟨⟨tokens, p.skipTrivia.offset, p.skipTrivia.line⟩, q, ?_, hkinds, hq, by omega⟩
  have hposition : (g.recognize caseSensitive g.statement p.skipTrivia
      p.skipTrivia.offset).position = q := hreports.position
  have htokens : (g.recognize caseSensitive g.statement p.skipTrivia
      p.skipTrivia.offset).tokens = tokens := hreports.tokens
  simp [next?, hatEnd, hreports.matched, hposition, htokens, hforward]

/-- The events of a text that is written of items are statements, one for each item. -/
theorem all_of_reads {α : Type} {written : α → List Piece} {yielded : α → List Token.Kind}
    {items : List α}
    (hitems : ∀ item ∈ items, written item ≠ [] ∧ ∀ rest,
      Reads g caseSensitive Recognition.maxRuleDepth (.element g.statement)
        (written item ++ rest) rest (yielded item))
    {fuel : Nat} {p : Position} (hfuel : p.rest.length ≤ fuel)
    (hp : Writes caseSensitive (items.flatMap written) p.rest) :
    ∃ statements : List Statement,
      all (fun p => g.recognize caseSensitive g.statement p p.offset) fuel p =
        statements.map .statement ∧
      statements.map (fun statement => statement.tokens.map (·.kind)) = items.map yielded := by
  induction items generalizing fuel p with
  | nil =>
    have hending : Text.IsEnding p.rest := by
      generalize htext : p.rest = text at hp
      cases hp with
      | done hending => exact hending
    refine ⟨[], ?_, rfl⟩
    cases fuel with
    | zero => rfl
    | succ fuel => simp [all, next?_of_ending hending]
  | cons item items ih =>
    rw [List.forall_mem_cons] at hitems
    obtain ⟨⟨hne, hread⟩, hitems⟩ := hitems
    obtain ⟨piece, pieces, hpieces⟩ := List.exists_cons_of_ne_nil hne
    have hread := hread (items.flatMap written)
    rw [List.flatMap_cons] at hp
    have hleft : (items.flatMap written).length <
        (written item ++ items.flatMap written).length := by
      rw [List.length_append, hpieces, List.length_cons]
      omega
    rw [hpieces, List.cons_append] at hp hread hleft
    obtain ⟨statement, q, hnext, hkinds, hq, hless⟩ := next?_of_reads hread hleft hp
    -- the first item takes a character, so the fuel is enough for the others
    have hpos : fuel ≠ 0 := by omega
    obtain ⟨room, rfl⟩ := Nat.exists_eq_add_one_of_ne_zero hpos
    have hroom : q.rest.length ≤ room := by omega
    obtain ⟨statements, hall, hstatements⟩ := ih hitems hroom hq
    refine ⟨statement :: statements, ?_, ?_⟩
    · simp [all, hnext, hall]
    · simp [hkinds, hstatements]

end Event
end Compositing
