import Compositing.Proofs.Script.Parsing

/-! # Described statements are parsed

    Every statement gets past the alternatives before its own: its first
    keyword is apart from theirs.  The two inputs begin alike and are told
    apart by what follows: on a slot the options of a target fail late. -/

namespace Compositing.Script

variable {caseSensitive : Bool} {room : Nat} {rest : List Piece}

/-- The statement is read whatever follows it. -/
def StatementText.IsRead (caseSensitive : Bool) (s : StatementText) : Prop :=
  ∀ rest, Reads grammar caseSensitive Recognition.maxRuleDepth
    (.element Production.statement.element) (s.pieces ++ rest) rest
    (s.shapes.flatMap UnitShape.kinds)

/-- A statement that is one unit is read by its production if the productions before it fail by
    their first keyword. -/
theorem isRead_of_production {s : StatementText} {u : UnitShape} (k : Keyword) (q : Production)
    (hshapes : s.shapes = [u]) {more : List Piece}
    (hpieces : s.pieces = .word k.text.toList :: more)
    (hpasses : Passes k q [.compositor, .technique, .texture, .targetOutput, .target, .pass,
      .targetOption, .passOption, .clearSection, .stencilSection, .closeBrace])
    (h : ∀ rest, Reads grammar caseSensitive 127 (.element q.element) (s.pieces ++ rest) rest
      u.kinds) :
    s.IsRead caseSensitive := by
  intro rest
  have hq := h rest
  rw [hpieces, List.cons_append] at hq
  have hstatement : Reads grammar caseSensitive (125 + 3) (.element Production.statement.element)
      (.word k.text.toList :: (more ++ rest)) rest u.kinds :=
    reads_led k q rfl hpasses hq
  rw [hshapes, hpieces, List.flatMap_singleton, List.cons_append]
  exact hstatement

theorem reads_spacedLabel {s : String} {stop : Char} (hstop : stop ∈ Scan.nameEnds) :
    Reads grammar caseSensitive (room + 1) (.element Production.spacedLabel.element)
      (.name s :: .mark stop :: rest) (.mark stop :: rest) [.label s] :=
  reads_single rfl (reads_last (reads_name rfl hstop))

/-- The name of a compositor, between quotes or not. -/
theorem reads_flexLabel (quoted : Bool) (s : String) :
    Reads grammar caseSensitive (room + 3) (.element Production.flexLabel.element)
      ((if quoted then [.mark '"', .name s, .mark '"'] else [.name s]) ++ .mark '\x7b' :: rest)
      (.mark '\x7b' :: rest) [.label s] := by
  cases quoted with
  | true =>
    refine reads_choice [] rfl (by simp) (reads_single rfl ?_)
    exact reads_cons (reads_mark rfl)
      (reads_cons (reads_spacedLabel (by decide)) (reads_last (reads_mark rfl)))
  | false =>
    refine reads_choice [.quotedLabel] rfl ?_ (reads_spacedLabel (by decide))
    intro p' hp'
    rw [List.mem_singleton.mp hp']
    apply fails_production
    apply fails_alternatives
    intro elements helements
    rw [List.mem_singleton.mp helements]
    exact fails_cons (fails_terminal (by decide) (by rfl))

theorem isRead_compositor (quoted : Bool) (name : String) :
    (StatementText.compositor quoted name).IsRead caseSensitive := by
  refine isRead_of_production .compositor .compositor rfl rfl (by decide) fun rest => ?_
  have hread : Reads grammar caseSensitive 127 (.element Production.compositor.element)
      (.word Keyword.compositor.text.toList ::
        ((if quoted then [.mark '"', .name name, .mark '"'] else [.name name]) ++
          .mark '\x7b' :: rest)) rest [Keyword.compositor.kind, .label name] :=
    reads_single rfl
      (reads_cons_kind (reads_keyword .compositor)
        (reads_cons_kind (reads_flexLabel quoted name) (reads_last reads_openingBrace)))
  simpa [StatementText.pieces, UnitShape.kinds, Action.keyword] using hread

theorem isRead_technique :
    (StatementText.opener ⟨.technique, []⟩).IsRead caseSensitive := by
  refine isRead_of_production .technique .technique rfl rfl (by decide) fun rest => ?_
  exact reads_single rfl
    (reads_cons_kind (reads_keyword .technique) (reads_last reads_openingBrace))

theorem isRead_texture (t : TextureText) : (StatementText.unit t.unit).IsRead caseSensitive := by
  refine isRead_of_production .texture .texture rfl rfl (by decide) fun rest => ?_
  have hwidth : ∀ n, (Piece.number n).refuses Keyword.targetWidth.text.toList = true := by
    intro n
    rfl
  have hheight : ∀ n, (Piece.number n).refuses Keyword.targetHeight.text.toList = true := by
    intro n
    rfl
  exact reads_single rfl
    (reads_cons_kind (reads_keyword .texture)
      (reads_cons_kind reads_labelProduction
        (reads_cons_kind (reads_length rfl t.width hwidth)
          (reads_cons_kind (reads_length rfl t.height hheight)
            (reads_last (reads_pixelFormat t.format))))))

theorem isRead_targetOutput :
    (StatementText.opener ⟨.targetOutput, []⟩).IsRead caseSensitive := by
  refine isRead_of_production .targetOutput .targetOutput rfl rfl (by decide) fun rest => ?_
  exact reads_single rfl
    (reads_cons_kind (reads_keyword .targetOutput) (reads_last reads_openingBrace))

theorem isRead_target (name : String) :
    (StatementText.opener ⟨.target, [.label name]⟩).IsRead caseSensitive := by
  refine isRead_of_production .target .target rfl rfl (by decide) fun rest => ?_
  exact reads_single rfl
    (reads_cons_kind (reads_keyword .target)
      (reads_cons_kind reads_labelProduction (reads_last reads_openingBrace)))

theorem isRead_pass (type : PassType) :
    (StatementText.opener ⟨.pass, [.keyword type.keyword]⟩).IsRead caseSensitive := by
  refine isRead_of_production .pass .pass rfl rfl (by decide) fun rest => ?_
  have hends : (Piece.word type.keyword.text.toList).refuses "_".toList = true :=
    type.keyword.refuses_underscore
  exact reads_single rfl
    (reads_cons_kind (reads_keyword .pass)
      (reads_cons_silent (reads_wordEnds hends)
        (reads_cons_kind (reads_passType type) (reads_last reads_openingBrace))))

theorem isRead_inputMode (mode : InputMode) :
    (StatementText.unit ⟨.input, [.keyword mode.keyword]⟩).IsRead caseSensitive := by
  refine isRead_of_production .input .targetOption rfl rfl (by decide) fun rest => ?_
  exact reads_led .input .targetInput rfl (by decide)
    (reads_optionOf rfl (reads_inputMode mode))

theorem isRead_targetOption (o : TargetOption) :
    (StatementText.unit o.unit).IsRead caseSensitive := by
  have hpasses : ∀ action ∈ [Action.onlyInitial, .visibilityMask, .lodBias, .materialScheme],
      Passes action.keyword .targetOption [.compositor, .technique, .texture, .targetOutput,
        .target, .pass, .targetOption, .passOption, .clearSection, .stencilSection,
        .closeBrace] := by decide
  refine isRead_of_production o.unit.action.keyword .targetOption rfl rfl ?_ fun rest => ?_
  · apply hpasses
    cases o <;> simp [TargetOption.unit]
  · exact reads_targetOption o

/-- The options of a target fail on the slot of a pass: `input` is there, but no mode. -/
theorem fails_targetOption_slot (slot : Numeral) :
    Fails grammar caseSensitive (room + 3) (.element Production.targetOption.element)
      (.word Keyword.input.text.toList :: .number slot :: rest) := by
  have hmode : Fails grammar caseSensitive (room + 1) (.element Production.inputMode.element)
      (.number slot :: rest) := by
    refine fails_of_literals [.none, .previous] rfl ?_
    intro k hk
    simp only [List.mem_cons, List.not_mem_nil, or_false] at hk
    rcases hk with rfl | rfl
    · rfl
    · rfl
  have hinput : Fails grammar caseSensitive (room + 2) (.element Production.targetInput.element)
      (.word Keyword.input.text.toList :: .number slot :: rest) := by
    apply fails_production
    apply fails_alternatives
    intro elements helements
    rw [List.mem_singleton.mp helements]
    exact fails_cons_later (reads_keyword .input) (fails_cons hmode)
  have hothers : ∀ p ∈ [Production.onlyInitial, .visibilityMask, .lodBias, .materialScheme],
      leads p ≠ [] ∧ ∀ k ∈ leads p, k.apart .input = true := by decide
  apply fails_choice rfl
  intro p hp
  rcases List.mem_cons.mp hp with rfl | hp
  · exact hinput
  · obtain ⟨hleads, hapart⟩ := hothers p hp
    exact fails_of_leads hleads fun k hk => Keyword.refuses_word (hapart k hk)

/-- The slot of a pass is read after the options of a target have failed. -/
theorem isRead_slot (slot : Numeral) (texture : String) :
    (StatementText.unit (PassOption.input slot texture).unit).IsRead caseSensitive := by
  intro rest
  have hbefore : ∀ p ∈ [Production.compositor, .technique, .texture, .targetOutput, .target,
      .pass], leads p ≠ [] ∧ ∀ k ∈ leads p, k.apart .input = true := by decide
  have hread : Reads grammar caseSensitive (127 + 1) (.element Production.statement.element)
      ((PassOption.input slot texture).unit.pieces ++ rest) rest
      (PassOption.input slot texture).unit.shape.kinds := by
    refine reads_choice ([.compositor, .technique, .texture, .targetOutput, .target, .pass] ++
      [.targetOption]) rfl ?_ (reads_passOption _)
    intro p hp
    rcases List.mem_append.mp hp with hp | hp
    · obtain ⟨hleads, hapart⟩ := hbefore p hp
      exact fails_of_leads hleads fun k hk => Keyword.refuses_word (hapart k hk)
    · rw [List.mem_singleton.mp hp]
      exact fails_targetOption_slot slot
  rw [StatementText.shapes, List.flatMap_singleton]
  exact hread

theorem isRead_passOption (o : PassOption) : (StatementText.unit o.unit).IsRead caseSensitive := by
  by_cases hslot : o.unit.action = .input
  · cases o with
    | input slot texture => exact isRead_slot slot texture
    | _ => cases hslot
  · have hpasses : ∀ action ∈ [Action.material, .firstRenderQueue, .lastRenderQueue,
        .identifier], Passes action.keyword .passOption [.compositor, .technique, .texture,
          .targetOutput, .target, .pass, .targetOption, .passOption, .clearSection,
          .stencilSection, .closeBrace] := by decide
    refine isRead_of_production o.unit.action.keyword .passOption rfl rfl ?_ fun rest => ?_
    · apply hpasses
      cases o with
      | input slot texture => exact absurd rfl hslot
      | _ => simp [PassOption.unit]
    · exact reads_passOption o

theorem isRead_clearBlock (options : List ClearOption) :
    (StatementText.block .clear (options.map ClearOption.unit)).IsRead caseSensitive := by
  intro rest
  have hread : Reads grammar caseSensitive (125 + 3) (.element Production.statement.element)
      ((StatementText.block .clear (options.map ClearOption.unit)).pieces ++ rest) rest
      ((StatementText.block .clear (options.map ClearOption.unit)).shapes.flatMap
        UnitShape.kinds) :=
    reads_led .clear .clearSection rfl (by decide) (reads_clearBlock options)
  exact hread

theorem isRead_stencilBlock (options : List StencilOption) :
    (StatementText.block .stencil (options.map StencilOption.unit)).IsRead caseSensitive := by
  intro rest
  have hread : Reads grammar caseSensitive (125 + 3) (.element Production.statement.element)
      ((StatementText.block .stencil (options.map StencilOption.unit)).pieces ++ rest) rest
      ((StatementText.block .stencil (options.map StencilOption.unit)).shapes.flatMap
        UnitShape.kinds) :=
    reads_led .stencil .stencilSection rfl (by decide) (reads_stencilBlock options)
  exact hread

theorem isRead_closer : StatementText.closer.IsRead caseSensitive := by
  intro rest
  have hbefore : ∀ p ∈ [Production.compositor, .technique, .texture, .targetOutput, .target,
      .pass, .targetOption, .passOption, .clearSection, .stencilSection],
      leads p ≠ [] ∧ ∀ k ∈ leads p, k ≠ .closeBrace := by decide
  have hread : Reads grammar caseSensitive (126 + 2) (.element Production.statement.element)
      (.mark '\x7d' :: rest) rest [Keyword.closeBrace.kind] := by
    refine reads_choice [.compositor, .technique, .texture, .targetOutput, .target, .pass,
      .targetOption, .passOption, .clearSection, .stencilSection] rfl ?_ ?_
    · intro p hp
      obtain ⟨hleads, hclose⟩ := hbefore p hp
      exact fails_of_leads hleads fun k hk => Keyword.refuses_brace (hclose k hk)
    · exact reads_single rfl (reads_last (reads_mark rfl))
  exact hread

/-- Every statement of a described script is read wherever it stands. -/
theorem isRead_of_described {s : StatementText} (h : s.Described) : s.IsRead caseSensitive := by
  cases h with
  | compositor quoted name => exact isRead_compositor quoted name
  | technique => exact isRead_technique
  | texture t => exact isRead_texture t
  | target name => exact isRead_target name
  | targetOutput => exact isRead_targetOutput
  | inputMode mode => exact isRead_inputMode mode
  | targetOption o => exact isRead_targetOption o
  | pass type => exact isRead_pass type
  | passOption o => exact isRead_passOption o
  | clear options => exact isRead_clearBlock options
  | stencil options => exact isRead_stencilBlock options
  | closer => exact isRead_closer

end Compositing.Script
