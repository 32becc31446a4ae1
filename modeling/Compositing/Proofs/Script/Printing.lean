import Compositing.Proofs.Script.Description
import Compositing.Proofs.Script.Keywords

/-! # Printing descriptions

    Whatever compositors are described, their statements can be written, as far
    as the names and labels can: everything else is keywords, braces, quotes
    and numerals. -/

namespace Compositing.Script

/-! ## Pieces that can be written -/

/-- The piece can be written if it is no label and no name. -/
def IsPlainPiece (piece : Piece) : Prop :=
  (∀ l, piece ≠ .label l) → (∀ n, piece ≠ .name n) → piece.IsWritable

/-- The term is no brace. -/
def Term.NoBrace (term : Term) : Prop := term ≠ .keyword .closeBrace

theorem plain_term {term : Term} (h : term.NoBrace) : IsPlainPiece term.piece := by
  intro hlabel _
  cases term with
  | keyword k => exact Keyword.isWord_text fun hk => h (congrArg Term.keyword hk)
  | number n => trivial
  | label l => exact absurd rfl (hlabel l)

theorem plain_unit {u : UnitText} (haction : u.action ≠ .closeBrace)
    (hterms : ∀ term ∈ u.terms, term.NoBrace) : ∀ piece ∈ u.pieces, IsPlainPiece piece := by
  intro piece hpiece
  rcases List.mem_cons.mp hpiece with rfl | hpiece
  · intro _ _
    apply Keyword.isWord_text
    revert haction
    cases u.action <;> decide
  · obtain ⟨term, hterm, rfl⟩ := List.mem_map.mp hpiece
    exact plain_term (hterms term hterm)

theorem plain_passOption (o : PassOption) : ∀ piece ∈ o.unit.pieces, IsPlainPiece piece := by
  apply plain_unit
  · cases o <;> simp [PassOption.unit]
  · cases o <;> simp [PassOption.unit, Term.NoBrace]

theorem plain_clearOption (o : ClearOption) : ∀ piece ∈ o.unit.pieces, IsPlainPiece piece := by
  apply plain_unit
  · cases o <;> simp [ClearOption.unit]
  · cases o with
    | buffers flags =>
      intro term hterm
      obtain ⟨flag, _, rfl⟩ := List.mem_map.mp hterm
      cases flag <;> simp [BufferFlag.keyword, Term.NoBrace]
    | _ => simp [ClearOption.unit, Term.NoBrace]

theorem plain_stencilOption (o : StencilOption) : ∀ piece ∈ o.unit.pieces, IsPlainPiece piece := by
  apply plain_unit
  · cases o <;> simp [StencilOption.unit]
  · cases o with
    | check on | twoSided on => cases on <;> simp [StencilOption.unit, switchKeyword, Term.NoBrace]
    | compFunc func =>
      cases func <;> simp [StencilOption.unit, CompareFunction.keyword, Term.NoBrace]
    | refValue value | mask value => simp [StencilOption.unit, Term.NoBrace]
    | failOp op | depthFailOp op | passOp op =>
      cases op <;> simp [StencilOption.unit, StencilOperation.keyword, Term.NoBrace]

theorem plain_targetOption (o : TargetOption) : ∀ piece ∈ o.unit.pieces, IsPlainPiece piece := by
  apply plain_unit
  · cases o <;> simp [TargetOption.unit]
  · cases o with
    | onlyInitial on => cases on <;> simp [TargetOption.unit, switchKeyword, Term.NoBrace]
    | _ => simp [TargetOption.unit, Term.NoBrace]

theorem plain_texture (t : TextureText) : ∀ piece ∈ t.unit.pieces, IsPlainPiece piece := by
  apply plain_unit
  · simp [TextureText.unit]
  · have hlength : ∀ (k : Keyword) (n : Option Numeral), k ≠ .closeBrace →
        (TextureText.length k n).NoBrace := by
      intro k n hk
      cases n <;> simp [TextureText.length, Term.NoBrace, hk]
    have hformat : (Term.keyword t.format.keyword).NoBrace := by
      cases t.format <;> simp [PixelFormat.keyword, Term.NoBrace]
    intro term hterm
    simp only [TextureText.unit, List.mem_cons, List.not_mem_nil, or_false] at hterm
    rcases hterm with rfl | rfl | rfl | rfl
    · simp [Term.NoBrace]
    · exact hlength .targetWidth t.width (by decide)
    · exact hlength .targetHeight t.height (by decide)
    · exact hformat

theorem plain_mark {c : Char} (h : Text.isMark c = true) : IsPlainPiece (.mark c) :=
  fun _ _ => h

theorem plain_opening : IsPlainPiece (.mark '\x7b') := plain_mark rfl

theorem plain_closing : IsPlainPiece (.mark '\x7d') := plain_mark rfl

theorem plain_opener {u : UnitText} (hu : ∀ piece ∈ u.pieces, IsPlainPiece piece) :
    ∀ piece ∈ (StatementText.opener u).pieces, IsPlainPiece piece := by
  rw [StatementText.pieces, List.forall_mem_append]
  exact ⟨hu, by simpa using plain_opening⟩

theorem plain_block {k : Keyword} {units : List UnitText} (hk : k ≠ .closeBrace)
    (hunits : ∀ u ∈ units, ∀ piece ∈ u.pieces, IsPlainPiece piece) :
    ∀ piece ∈ (StatementText.block k units).pieces, IsPlainPiece piece := by
  rw [StatementText.pieces, List.forall_mem_cons, List.forall_mem_cons, List.forall_mem_append]
  refine ⟨fun _ _ => Keyword.isWord_text hk, plain_opening, ?_, by simpa using plain_closing⟩
  intro piece hpiece
  obtain ⟨u, hu, hpiece⟩ := List.mem_flatMap.mp hpiece
  exact hunits u hu piece hpiece

/-- Everything in a described statement but labels and names can be written. -/
theorem plain_of_described {s : StatementText} (h : s.Described) :
    ∀ piece ∈ s.pieces, IsPlainPiece piece := by
  cases h with
  | compositor quoted name =>
    have hname : IsPlainPiece (.name name) := fun _ h => absurd rfl (h name)
    have hquote : IsPlainPiece (.mark '"') := plain_mark rfl
    have hword : IsPlainPiece (.word Keyword.compositor.text.toList) :=
      fun _ _ => Keyword.isWord_text (by decide)
    cases quoted <;> simp [StatementText.pieces, hname, hquote, hword, plain_opening]
  | technique => exact plain_opener (plain_unit (by decide) (by simp))
  | texture t => exact plain_texture t
  | target name => exact plain_opener (plain_unit (by simp) (by simp [Term.NoBrace]))
  | targetOutput => exact plain_opener (plain_unit (by decide) (by simp))
  | inputMode mode =>
    refine plain_unit (by simp) ?_
    cases mode <;> simp [InputMode.keyword, Term.NoBrace]
  | targetOption o => exact plain_targetOption o
  | pass type =>
    refine plain_opener (plain_unit (by simp) ?_)
    cases type <;> simp [PassType.keyword, Term.NoBrace]
  | passOption o => exact plain_passOption o
  | clear options =>
    refine plain_block (by decide) fun u hu => ?_
    obtain ⟨o, _, rfl⟩ := List.mem_map.mp hu
    exact plain_clearOption o
  | stencil options =>
    refine plain_block (by decide) fun u hu => ?_
    obtain ⟨o, _, rfl⟩ := List.mem_map.mp hu
    exact plain_stencilOption o
  | closer => simpa [StatementText.pieces] using plain_closing

/-! ## The script -/

/-- A script of the described compositors. -/
def script (quoted : String → Bool) (described : List CompositorText) : String :=
  String.ofList (Piece.print ((scriptStatements quoted described).flatMap StatementText.pieces))

/-- Described compositors have a script if their names and labels can be written. -/
theorem isScriptOf_script {caseSensitive : Bool} {quoted : String → Bool}
    {described : List CompositorText}
    (hlabels : ∀ l, .label l ∈ (scriptStatements quoted described).flatMap StatementText.pieces →
      Scan.IsQuotedLabel l)
    (hnames : ∀ n, .name n ∈ (scriptStatements quoted described).flatMap StatementText.pieces →
      Scan.IsName n) :
    IsScriptOf caseSensitive quoted described (script quoted described) := by
  unfold IsScriptOf script
  rw [String.toList_ofList]
  apply Piece.writes_print
  intro piece hpiece
  obtain ⟨s, hs, hmem⟩ := List.mem_flatMap.mp hpiece
  have hplain := plain_of_described (described_of_mem hs) piece hmem
  cases piece with
  | label l => exact hlabels l hpiece
  | name n => exact hnames n hpiece
  | _ => exact hplain (by simp) (by simp)

/-- Described compositors have a script exactly if their names and labels can be written. -/
theorem exists_isScriptOf_iff {caseSensitive : Bool} {quoted : String → Bool}
    {described : List CompositorText} :
    (∃ text, IsScriptOf caseSensitive quoted described text) ↔
      (∀ l, .label l ∈ (scriptStatements quoted described).flatMap StatementText.pieces →
        Scan.IsQuotedLabel l) ∧
      (∀ n, .name n ∈ (scriptStatements quoted described).flatMap StatementText.pieces →
        Scan.IsName n) := by
  constructor
  · intro ⟨text, htext⟩
    have hwritable := Piece.exists_writes_iff.mp ⟨text.toList, htext⟩
    exact ⟨fun l hl => hwritable _ hl, fun n hn => hwritable _ hn⟩
  · intro ⟨hlabels, hnames⟩
    exact ⟨_, isScriptOf_script hlabels hnames⟩

end Compositing.Script
