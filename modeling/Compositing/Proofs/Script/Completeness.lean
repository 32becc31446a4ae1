import Compositing.Proofs.Recognition.Written
import Compositing.Proofs.Script.Building
import Compositing.Proofs.Script.Printing
import Compositing.Proofs.Script.Statements

/-! # Well-formed documents

    A document that is written of described compositors compiles to exactly
    these: its events are the statements of the description, the units of the
    statements are those described, and each is carried out without a report. -/

namespace Compositing.Script

/-! ## Described units -/

theorem fits_clearOption (o : ClearOption) : o.unit.shape.Fits := by
  cases o with
  | buffers flags =>
    refine ⟨flags.map BufferFlag.keyword, ?_, ?_⟩
    · intro k hk
      obtain ⟨flag, _, rfl⟩ := List.mem_map.mp hk
      cases flag <;> rfl
    · simp [ClearOption.unit, UnitText.shape, Term.kind]
  | colourValue red green blue alpha => exact ⟨_, _, _, _, rfl⟩
  | depthValue depth => exact ⟨_, rfl⟩
  | stencilValue value => exact ⟨_, rfl⟩

theorem fits_stencilOption (o : StencilOption) : o.unit.shape.Fits := by
  cases o with
  | check on | twoSided on => exact ⟨switchKeyword on, by cases on <;> rfl, rfl⟩
  | compFunc func => exact ⟨func.keyword, by cases func <;> rfl, rfl⟩
  | refValue value | mask value => exact ⟨_, rfl⟩
  | failOp op | depthFailOp op | passOp op => exact ⟨op.keyword, by cases op <;> rfl, rfl⟩

theorem fits_targetOption (o : TargetOption) : o.unit.shape.Fits := by
  cases o with
  | onlyInitial on => exact ⟨switchKeyword on, by cases on <;> rfl, rfl⟩
  | visibilityMask mask => exact ⟨_, rfl⟩
  | lodBias bias => exact ⟨_, rfl⟩
  | materialScheme scheme => exact ⟨_, rfl⟩

theorem fits_passOption (o : PassOption) : o.unit.shape.Fits := by
  cases o with
  | input slot texture => exact .inr ⟨_, _, rfl⟩
  | _ => exact ⟨_, rfl⟩

theorem fits_texture (t : TextureText) : t.unit.shape.Fits := by
  refine ⟨t.name, _, _, t.format.keyword, ?_, ?_, ?_, rfl⟩
  · cases t.width with
    | none => exact .inl rfl
    | some n => exact .inr ⟨_, rfl⟩
  · cases t.height with
    | none => exact .inl rfl
    | some n => exact .inr ⟨_, rfl⟩
  · cases t.format <;> rfl

/-- Described units have the arguments that their actions take. -/
theorem fits_of_described {s : StatementText} (h : s.Described) : ∀ u ∈ s.shapes, u.Fits := by
  -- a statement of one unit
  have single : ∀ {u : UnitShape}, u.Fits → ∀ v ∈ [u], v.Fits := by
    intro u hu v hv
    rw [List.mem_singleton.mp hv]
    exact hu
  cases h with
  | compositor quoted name | target name => exact single ⟨name, rfl⟩
  | technique | targetOutput | closer => exact single rfl
  | texture t => exact single (fits_texture t)
  | inputMode mode => exact single (Or.inl ⟨mode.keyword, by cases mode <;> rfl, rfl⟩)
  | pass type => exact single ⟨type.keyword, by cases type <;> rfl, rfl⟩
  | targetOption o => exact single (fits_targetOption o)
  | passOption o => exact single (fits_passOption o)
  | clear options =>
    intro u hu
    simp only [StatementText.shapes, List.map_map, List.mem_map] at hu
    obtain ⟨o, _, rfl⟩ := hu
    exact fits_clearOption o
  | stencil options =>
    intro u hu
    simp only [StatementText.shapes, List.map_map, List.mem_map] at hu
    obtain ⟨o, _, rfl⟩ := hu
    exact fits_stencilOption o

theorem pieces_ne_nil (s : StatementText) : s.pieces ≠ [] := by
  cases s <;> simp [StatementText.pieces, UnitText.pieces]

/-! ## Runs over described statements -/

section
variable {σ : Type} (b : Builder σ) (caseSensitive : Bool)

/-- Statements whose tokens are those of described statements are cut into the described units;
    a run over them that carries all the units out counts them. -/
theorem exists_cut {items : List StatementText} {statements : List Statement}
    (hitems : ∀ item ∈ items, item.Described)
    (hkinds : statements.map (fun statement => statement.tokens.map (·.kind)) =
      items.map fun item => item.shapes.flatMap UnitShape.kinds) :
    ∃ cut : List (ActionUnit Action), cut.map UnitShape.ofUnit = unitsOf items ∧
      ∀ (summary : Summary) (s s' : Session σ), Carries b cut s s' →
        (Session.handler b).runEvents (language caseSensitive).lexicon.action?
          (statements.map .statement) summary s =
          (.ok { summary with
            statements := summary.statements + items.length
            actions := summary.actions + (unitsOf items).length }, s') := by
  induction items generalizing statements with
  | nil =>
    rw [List.map_eq_nil_iff.mp hkinds]
    refine ⟨[], rfl, fun summary s s' hcarries => ?_⟩
    cases hcarries with
    | nil => rfl
  | cons item items ih =>
    rw [List.forall_mem_cons] at hitems
    obtain ⟨statement, rest, rfl, hstatement, hrest⟩ := List.map_eq_cons_iff.mp hkinds
    -- the units of the first statement, then those of the others
    obtain ⟨cut, hcut, hshape, _⟩ :=
      cut_units caseSensitive (fits_of_described hitems.1) hstatement
    obtain ⟨more, hmore, hrun⟩ := ih hitems.2 hrest
    have hunits : unitsOf (item :: items) = item.shapes ++ unitsOf items := List.flatMap_cons
    refine ⟨cut ++ more, ?_, fun summary s s' hcarries => ?_⟩
    · rw [List.map_append, hshape, hmore, hunits]
    · obtain ⟨s₁, hfirst, hlater⟩ := hcarries.split
      have hcut : ActionUnit.cut (language caseSensitive).lexicon.action? statement.tokens =
          ([], cut) := hcut
      have hlength : cut.length = item.shapes.length := by
        rw [← hshape, List.length_map]
      have hstatement : (Session.handler b).runStatement
          (language caseSensitive).lexicon.action? statement s = (.ok cut.length, s₁) := by
        unfold Handler.runStatement
        rw [hcut]
        exact hfirst.runUnits
      simp only [List.map_cons, Handler.runEvents, hstatement, hrun _ _ _ hlater]
      simp only [hunits, List.length_append, List.length_cons, hlength, Nat.add_assoc,
        Nat.add_comm 1]

end

/-! ## Documents -/

section
variable {caseSensitive : Bool} {quoted : String → Bool} {described : List CompositorText}

/-- The events of a script are its statements. -/
theorem events_of_isScriptOf {text : String}
    (h : IsScriptOf caseSensitive quoted described text) :
    ∃ statements : List Statement,
      (language caseSensitive).events text.toList = statements.map .statement ∧
      statements.map (fun statement => statement.tokens.map (·.kind)) =
        (scriptStatements quoted described).map fun item =>
          item.shapes.flatMap UnitShape.kinds :=
  Event.all_of_reads (fun item hitem =>
    ⟨pieces_ne_nil item, isRead_of_described (described_of_mem hitem)⟩) (Nat.le_refl _) h

/-- At the beginning of a document the registry shows an empty script. -/
theorem shows_beginDocument (group : String) (d : Document) (r : Registry) :
    Shows group r.defaults (.script r.compositors)
      ((Session.new group r).beginDocument d) where
  stands :=
    { compositors := rfl
      defaults := rfl
      group := rfl
      innermost := rfl
      output := rfl
      skipDepth := rfl
      handles := by
        intro within place hplace
        cases within <;> cases hplace }
  diagnostics := rfl
  errors := rfl

/-- Where every block is closed, the end of the document reports nothing. -/
theorem endDocument_of_shows {group : String} {defaults : Defaults}
    {compositors : List Compositor} {s : Session Registry}
    (h : Shows group defaults (.script compositors) s) : s.endDocument = s := by
  have hblocks : s.context.openBlocks = 0 := by
    unfold Context.openBlocks
    rw [h.stands.innermost, h.stands.skipDepth]
    rfl
  simp only [Session.endDocument, hblocks]

/-- A document that is written of compositors whose names differ and are free compiles without a
    diagnostic; the registry then holds exactly these compositors after the old ones. -/
theorem compile_written (caseSensitive : Bool) (group : String) (d : Document) (r : Registry)
    (quoted : String → Bool) (described : List CompositorText)
    (hnodup : (described.map (·.name)).Nodup)
    (hfree : ∀ text ∈ described, r.find? text.name = none)
    (htextures : ∀ text ∈ described, ∀ technique ∈ text.techniques,
      technique.textureNames.Nodup)
    (hwritten : IsScriptOf caseSensitive quoted described d.text) :
    ∃ s, (Compiler.standard caseSensitive group).compile Registry.builder d r =
        (.ok ⟨(scriptStatements quoted described).length,
          (unitsOf (scriptStatements quoted described)).length, 0, 0⟩, s) ∧
      s.diagnostics = [] ∧ s.builder.defaults = r.defaults ∧
      s.builder.compositors =
        r.compositors ++ described.map (·.compositor group r.defaults) := by
  obtain ⟨statements, hevents, hkinds⟩ := events_of_isScriptOf hwritten
  obtain ⟨cut, hcut, hrun⟩ := exists_cut Registry.builder caseSensitive
    (fun item hitem => described_of_mem hitem) hkinds
  have hfresh : ∀ text ∈ described, ∀ c ∈ r.compositors, c.name ≠ text.name := by
    intro text htext c hc
    have hnone := List.find?_eq_none.mp (hfree text htext) c hc
    simpa using hnone
  obtain ⟨s, hcarries, hshows⟩ :=
    builds_script quoted hnodup hfresh htextures cut _ hcut (shows_beginDocument group d r)
  have hrun := hrun ⟨0, 0, 0, 0⟩ _ _ hcarries
  rw [← hevents] at hrun
  refine ⟨s, ?_, hshows.diagnostics, hshows.stands.defaults, hshows.stands.compositors⟩
  rw [Session.compile_of_ok hrun, endDocument_of_shows hshows, hshows.errors]
  simp

/-- A compositor with a texture, a target that a pass draws on and a pass that clears the output
    target.  Of the two textures for slot 1 and of the two input modes of the target the last ones
    count, and the two blocks of the output target are about the same one. -/
def television : CompositorText where
  name := "Old TV"
  techniques :=
    [⟨[.texture ⟨"rt0", none, some ⟨"128".toList, by decide⟩, .a8r8g8b8⟩,
      .output [.pass ⟨.clear, [.clear [.buffers [.colour, .colour]]]⟩],
      .target "rt0"
        [.item (.input .none), .option (.visibilityMask ⟨"3".toList, by decide⟩),
          .item (.pass ⟨.renderQuad,
            [.option (.input ⟨"1".toList, by decide⟩ "rt0"),
              .option (.input ⟨"0".toList, by decide⟩ "rt0"), .option (.material "Noise"),
              .option (.input ⟨"1".toList, by decide⟩ "noise")]⟩),
          .item (.input .previous)],
      .output [.input .previous]]⟩]

/-- What the description of the compositor stands for. -/
def televisionBuilt : Compositor where
  name := "Old TV"
  group := "General"
  techniques :=
    [{ textures := [⟨"rt0", 0, 128, .a8r8g8b8⟩]
       targets :=
        [{ outputName := some "rt0"
           inputMode := .previous
           onlyInitial := false
           visibilityMask := 3
           lodBias := .ofNat Number.single 1
           materialScheme := "Default"
           passes :=
            [{ passType := .renderQuad
               identifier := 0
               material := some "Noise"
               inputs := [(0, "rt0"), (1, "noise")]
               firstRenderQueue := 5
               lastRenderQueue := 95
               clear := ⟨⟨true, true, false⟩, .zero, .ofNat Number.single 1, 0⟩
               stencil := ⟨false, .alwaysPass, 0, 4294967295, .keep, .keep, .keep, false⟩ }] }]
       output :=
        { outputName := none
          inputMode := .previous
          onlyInitial := false
          visibilityMask := 4294967295
          lodBias := .ofNat Number.single 1
          materialScheme := "Default"
          passes :=
            [{ passType := .clear
               identifier := 0
               material := none
               inputs := []
               firstRenderQueue := 5
               lastRenderQueue := 95
               clear := ⟨⟨true, false, false⟩, .zero, .ofNat Number.single 1, 0⟩
               stencil := ⟨false, .alwaysPass, 0, 4294967295, .keep, .keep, .keep, false⟩ }] } }]

theorem compile_written_television :
    ∃ s, (Compiler.standard false "General").compile Registry.builder
        ⟨"tv.compositor", script (fun _ => true) [television]⟩ (Registry.empty .standard) =
        (.ok ⟨24, 24, 0, 0⟩, s) ∧
      s.diagnostics = [] ∧ s.builder.defaults = .standard ∧
      s.builder.compositors = [televisionBuilt] := by
  have hwritable : ∀ piece ∈ (scriptStatements (fun _ => true) [television]).flatMap
      StatementText.pieces, piece.IsWritable := by decide +kernel
  have hwritten : IsScriptOf false (fun _ => true) [television]
      (script (fun _ => true) [television]) :=
    isScriptOf_script (fun l hl => hwritable _ hl) (fun n hn => hwritable _ hn)
  have hbuilt : television.compositor "General" .standard = televisionBuilt := by
    decide +kernel
  have hcompiled := compile_written false "General"
    ⟨"tv.compositor", script (fun _ => true) [television]⟩ (Registry.empty .standard)
    (fun _ => true) [television] (by decide) (by simp [Registry.find?, Registry.empty])
    (by decide) hwritten
  rw [List.map_singleton] at hcompiled
  rw [← hbuilt]
  exact hcompiled

end

end Compositing.Script
