import Compositing.Proofs.Language.Cutting
import Compositing.Proofs.Recognition.Yield
import Compositing.Script.Production

/-! # The shape of statements

    The tokens of a statement are units: each begins with the keyword of an
    action and goes on with the arguments the action takes, none of which
    begins an action.  All statements are one unit but the option blocks of
    clear and stencil passes, which are any number of them.

    The yields of the productions are computed from the leaves up; the
    productions that are units all have one lemma, `takes_of_yields`. -/

namespace Compositing

/-! ## Units -/

/-- The kind of a keyword's tokens. -/
def Keyword.kind (k : Keyword) : Token.Kind := .keyword k.id

/-- One argument, a keyword that stands for a value. -/
def Keyword.TakesValue {α : Type} (value? : Keyword → Option α) (kinds : List Token.Kind) :
    Prop :=
  ∃ k, (value? k).isSome ∧ kinds = [k.kind]

/-- The length of a texture: a number, or the keyword that stands for 0. -/
def Keyword.IsLength (k : Keyword) (kind : Token.Kind) : Prop :=
  kind = k.kind ∨ ∃ x, kind = .number x

/-- The kinds of the arguments that a statement gives an action. -/
def Action.Takes : Action → List Token.Kind → Prop
  | .closeBrace, kinds | .technique, kinds | .targetOutput, kinds => kinds = []
  | .compositor, kinds | .target, kinds | .material, kinds | .materialScheme, kinds =>
    ∃ s, kinds = [.label s]
  | .texture, kinds =>
    ∃ s width height format, Keyword.targetWidth.IsLength width ∧
      Keyword.targetHeight.IsLength height ∧ (Keyword.pixelFormat? format).isSome ∧
      kinds = [.label s, width, height, format.kind]
  | .input, kinds =>
    Keyword.TakesValue Keyword.inputMode? kinds ∨ ∃ x s, kinds = [.number x, .label s]
  | .onlyInitial, kinds | .check, kinds | .twoSided, kinds =>
    Keyword.TakesValue Keyword.switch? kinds
  | .pass, kinds => Keyword.TakesValue Keyword.passType? kinds
  | .buffers, kinds =>
    ∃ ks : List Keyword, (∀ k ∈ ks, (Keyword.buffer? k).isSome) ∧ kinds = ks.map Keyword.kind
  | .colourValue, kinds => ∃ r g b a, kinds = [.number r, .number g, .number b, .number a]
  | .compFunc, kinds => Keyword.TakesValue Keyword.compareFunction? kinds
  | .failOp, kinds | .depthFailOp, kinds | .passOp, kinds =>
    Keyword.TakesValue Keyword.stencilOperation? kinds
  | .visibilityMask, kinds | .lodBias, kinds | .firstRenderQueue, kinds
  | .lastRenderQueue, kinds | .identifier, kinds | .depthValue, kinds | .stencilValue, kinds
  | .refValue, kinds | .mask, kinds => ∃ x, kinds = [.number x]

namespace Script

/-- An action and the kinds of its arguments. -/
structure UnitShape where
  action : Action
  arguments : List Token.Kind

namespace UnitShape

/-- The kinds of the tokens of a unit. -/
def kinds (u : UnitShape) : List Token.Kind := u.action.keyword.kind :: u.arguments

/-- The arguments are what the action takes. -/
def Fits (u : UnitShape) : Prop := u.action.Takes u.arguments

end UnitShape

/-- The options of a clear block. -/
def clearOptions : List Action := [.buffers, .colourValue, .depthValue, .stencilValue]

/-- The options of a stencil block. -/
def stencilOptions : List Action :=
  [.check, .compFunc, .refValue, .mask, .failOp, .depthFailOp, .passOp, .twoSided]

/-- The units of a statement: a single one that is no option of a block, or the options of a
    clear or of a stencil block. -/
inductive StatementShape : List UnitShape → Prop where
  | single {u : UnitShape} (hclear : u.action ∉ clearOptions)
    (hstencil : u.action ∉ stencilOptions) (hfits : u.Fits) : StatementShape [u]
  | clear {units : List UnitShape} (h : ∀ u ∈ units, u.action ∈ clearOptions ∧ u.Fits) :
    StatementShape units
  | stencil {units : List UnitShape} (h : ∀ u ∈ units, u.action ∈ stencilOptions ∧ u.Fits) :
    StatementShape units

theorem StatementShape.fits {units : List UnitShape} (h : StatementShape units) {u : UnitShape}
    (hu : u ∈ units) : u.Fits := by
  cases h with
  | single _ _ hfits =>
    rw [List.mem_singleton] at hu
    exact hu ▸ hfits
  | clear h | stencil h => exact (h u hu).2

/-- A statement of several units has options only, so none of them is an input. -/
theorem StatementShape.single_or_ne_input {units : List UnitShape} (h : StatementShape units) :
    (∃ u, units = [u]) ∨ ∀ u ∈ units, u.action ≠ .input := by
  have hclear : Action.input ∉ clearOptions := by decide
  have hstencil : Action.input ∉ stencilOptions := by decide
  cases h with
  | single _ _ _ => exact .inl ⟨_, rfl⟩
  | clear h => exact .inr fun u hu hinput => hclear (hinput ▸ (h u hu).1)
  | stencil h => exact .inr fun u hu hinput => hstencil (hinput ▸ (h u hu).1)

/-! ## Yields of the elements -/

section
variable {kinds : List Token.Kind}

theorem yields_production {p : Production} :
    Yields grammar (.element p.element) kinds ↔
      Yields grammar (.alternatives p.alternatives) kinds :=
  yields_rule (grammar_rule? p)

theorem yields_keyword {k : Keyword} :
    Yields grammar (.element k.element) kinds ↔ kinds = [k.kind] :=
  yields_terminal

theorem yields_silent {text : String} :
    Yields grammar (.element (silent text)) kinds ↔ kinds = [] :=
  yields_terminal

theorem yields_wordEnds : Yields grammar (.element wordEnds) kinds ↔ kinds = [] :=
  yields_notAhead

/-- A sequence of one element. -/
theorem yields_single {e : Element} :
    Yields grammar (.sequence [e]) kinds ↔ Yields grammar (.element e) kinds := by
  rw [yields_cons]
  constructor
  · rintro ⟨head, tail, hhead, htail, rfl⟩
    rw [yields_nil.mp htail, List.append_nil]
    exact hhead
  · intro h
    exact ⟨kinds, [], h, .nil, by simp⟩

/-- An element that has no token, in front of others. -/
theorem yields_cons_silent {e : Element} {rest : List Element}
    (he : ∀ kinds, Yields grammar (.element e) kinds ↔ kinds = []) :
    Yields grammar (.sequence (e :: rest)) kinds ↔ Yields grammar (.sequence rest) kinds := by
  rw [yields_cons]
  constructor
  · rintro ⟨head, tail, hhead, htail, rfl⟩
    rw [(he head).mp hhead]
    exact htail
  · intro h
    exact ⟨[], kinds, (he []).mpr rfl, h, rfl⟩

/-- A keyword in front of other elements. -/
theorem yields_cons_keyword {k : Keyword} {rest : List Element} :
    Yields grammar (.sequence (k.element :: rest)) kinds ↔
      ∃ tail, Yields grammar (.sequence rest) tail ∧ kinds = k.kind :: tail := by
  rw [yields_cons]
  constructor
  · rintro ⟨head, tail, hhead, htail, rfl⟩
    rw [yields_keyword.mp hhead]
    exact ⟨tail, htail, rfl⟩
  · rintro ⟨tail, htail, rfl⟩
    exact ⟨[k.kind], tail, yields_keyword.mpr rfl, htail, rfl⟩

/-- A number in front of other elements. -/
theorem yields_cons_number {name : String} {rest : List Element} :
    Yields grammar (.sequence (.number name :: rest)) kinds ↔
      ∃ x tail, Yields grammar (.sequence rest) tail ∧ kinds = .number x :: tail := by
  rw [yields_cons]
  constructor
  · rintro ⟨head, tail, hhead, htail, rfl⟩
    obtain ⟨x, rfl⟩ := yields_number.mp hhead
    exact ⟨x, tail, htail, rfl⟩
  · rintro ⟨x, tail, htail, rfl⟩
    exact ⟨[.number x], tail, .number, htail, rfl⟩

theorem yields_alternatives_single {elements : List Element} :
    Yields grammar (.alternatives [elements]) kinds ↔
      Yields grammar (.sequence elements) kinds := by
  simp [yields_alternatives]

/-- Alternatives that are each one element. -/
theorem yields_oneOf {α : Type} {items : List α} {element : α → Element} :
    Yields grammar (.alternatives (items.map ([element ·]))) kinds ↔
      ∃ item ∈ items, Yields grammar (.element (element item)) kinds := by
  rw [yields_alternatives]
  constructor
  · rintro ⟨sequence, hmem, h⟩
    obtain ⟨item, hitem, rfl⟩ := List.mem_map.mp hmem
    exact ⟨item, hitem, yields_single.mp h⟩
  · rintro ⟨item, hitem, h⟩
    exact ⟨_, List.mem_map.mpr ⟨item, hitem, rfl⟩, yields_single.mpr h⟩

/-- Alternatives that are each one keyword. -/
theorem yields_keywords {keywords : List Keyword} :
    Yields grammar (.alternatives (Keyword.oneOf keywords)) kinds ↔
      ∃ k ∈ keywords, kinds = [k.kind] := by
  rw [Keyword.oneOf, yields_oneOf]
  simp only [yields_keyword]

/-! ## Yields of the arguments -/

theorem yields_label_production :
    Yields grammar (.element Production.label.element) kinds ↔ ∃ s, kinds = [.label s] := by
  rw [yields_production]
  exact yields_alternatives_single.trans (yields_single.trans yields_label)

theorem yields_spacedLabel :
    Yields grammar (.element Production.spacedLabel.element) kinds ↔ ∃ s, kinds = [.label s] := by
  rw [yields_production]
  exact yields_alternatives_single.trans (yields_single.trans yields_run)

theorem yields_quotedLabel :
    Yields grammar (.element Production.quotedLabel.element) kinds ↔ ∃ s, kinds = [.label s] := by
  rw [yields_production, Production.alternatives, yields_alternatives_single,
    yields_cons_silent fun _ => yields_silent, yields_cons]
  constructor
  · rintro ⟨head, tail, hhead, htail, rfl⟩
    rw [yields_single, yields_silent] at htail
    rw [htail, List.append_nil]
    exact yields_spacedLabel.mp hhead
  · intro h
    exact ⟨kinds, [], yields_spacedLabel.mpr h, yields_single.mpr (yields_silent.mpr rfl), by simp⟩

theorem yields_flexLabel :
    Yields grammar (.element Production.flexLabel.element) kinds ↔ ∃ s, kinds = [.label s] := by
  rw [yields_production, Production.alternatives, Production.oneOf, yields_oneOf]
  simp [yields_quotedLabel, yields_spacedLabel]

/-- A production whose alternatives are the keywords that stand for a value. -/
theorem takesValue_of_yields {α : Type} (value? : Keyword → Option α) {keywords : List Keyword}
    (hvalue : ∀ k ∈ keywords, (value? k).isSome) {p : Production}
    (hp : p.alternatives = Keyword.oneOf keywords)
    (h : Yields grammar (.element p.element) kinds) : Keyword.TakesValue value? kinds := by
  rw [yields_production, hp, yields_keywords] at h
  obtain ⟨k, hk, rfl⟩ := h
  exact ⟨k, hvalue k hk, rfl⟩

/-- A production that is a keyword or a number. -/
theorem isLength_of_yields {k : Keyword} {name : String} {p : Production}
    (hp : p.alternatives = [[k.element], [.number name]])
    (h : Yields grammar (.element p.element) kinds) :
    ∃ kind, k.IsLength kind ∧ kinds = [kind] := by
  rw [yields_production, hp, yields_alternatives] at h
  obtain ⟨sequence, hmem, h⟩ := h
  simp only [List.mem_cons, List.not_mem_nil, or_false] at hmem
  obtain rfl | rfl := hmem
  · exact ⟨k.kind, .inl rfl, yields_keyword.mp (yields_single.mp h)⟩
  · obtain ⟨x, rfl⟩ := yields_number.mp (yields_single.mp h)
    exact ⟨_, .inr ⟨x, rfl⟩, rfl⟩

/-- A production that is a keyword and a production. -/
theorem yields_optionOf {k : Keyword} {value p : Production}
    (hp : p.alternatives = optionOf k value) (h : Yields grammar (.element p.element) kinds) :
    ∃ arguments, Yields grammar (.element value.element) arguments ∧
      kinds = k.kind :: arguments := by
  rw [yields_production, hp, optionOf, yields_alternatives_single, yields_cons_keyword] at h
  obtain ⟨arguments, h, rfl⟩ := h
  exact ⟨arguments, yields_single.mp h, rfl⟩

/-- A production that is a keyword and a number. -/
theorem yields_numberOption {k : Keyword} {name : String} {p : Production}
    (hp : p.alternatives = numberOption k name) (h : Yields grammar (.element p.element) kinds) :
    ∃ arguments, (∃ x, arguments = [.number x]) ∧ kinds = k.kind :: arguments := by
  rw [yields_production, hp, numberOption, yields_alternatives_single, yields_cons_keyword] at h
  obtain ⟨arguments, h, rfl⟩ := h
  exact ⟨arguments, yields_number.mp (yields_single.mp h), rfl⟩

/-- A production that is a keyword which no underscore goes on. -/
theorem yields_wholeWord {k : Keyword} {p : Production} (hp : p.alternatives = wholeWord k)
    (h : Yields grammar (.element p.element) kinds) : kinds = [k.kind] := by
  rw [yields_production, hp, wholeWord, yields_alternatives_single, yields_cons_keyword] at h
  obtain ⟨arguments, h, rfl⟩ := h
  rw [yields_wordEnds.mp (yields_single.mp h)]

theorem yields_bufferType (h : Yields grammar (.element Production.bufferType.element) kinds) :
    ∃ k, (Keyword.buffer? k).isSome ∧ kinds = [k.kind] := by
  rw [yields_production, Production.alternatives, Production.oneOf, yields_oneOf] at h
  obtain ⟨p, hmem, h⟩ := h
  simp only [List.mem_cons, List.not_mem_nil, or_false] at hmem
  obtain rfl | rfl | rfl := hmem
  · exact ⟨.colour, rfl, yields_wholeWord rfl h⟩
  · exact ⟨.depth, rfl, yields_wholeWord rfl h⟩
  · exact ⟨.stencil, rfl, yields_wholeWord rfl h⟩

/-- A repetition of buffer types is a list of buffers. -/
theorem yields_bufferTypes
    (h : Yields grammar (.element (.repeated Production.bufferType.element)) kinds) :
    ∃ ks : List Keyword, (∀ k ∈ ks, (Keyword.buffer? k).isSome) ∧
      kinds = ks.map Keyword.kind := by
  obtain ⟨rounds, hrounds, rfl⟩ := yields_repeated.mp h
  clear h
  induction rounds with
  | nil => exact ⟨[], by simp, rfl⟩
  | cons round rounds ih =>
    rw [List.forall_mem_cons] at hrounds
    obtain ⟨k, hk, rfl⟩ := yields_bufferType hrounds.1
    obtain ⟨ks, hks, heq⟩ := ih hrounds.2
    refine ⟨k :: ks, by simpa using ⟨hk, hks⟩, ?_⟩
    rw [List.flatten_cons, heq]
    rfl

/-! ## Yields of the units -/

/-- The action whose units a production has. -/
def Production.action? : Production → Option Action
  | .closeBrace => some .closeBrace
  | .compositor => some .compositor
  | .technique => some .technique
  | .texture => some .texture
  | .targetOutput => some .targetOutput
  | .target => some .target
  | .targetInput | .passInput => some .input
  | .onlyInitial => some .onlyInitial
  | .visibilityMask => some .visibilityMask
  | .lodBias => some .lodBias
  | .materialScheme => some .materialScheme
  | .pass => some .pass
  | .passMaterial => some .material
  | .passFirstRenderQueue => some .firstRenderQueue
  | .passLastRenderQueue => some .lastRenderQueue
  | .passIdentifier => some .identifier
  | .buffers => some .buffers
  | .colourValue => some .colourValue
  | .depthValue => some .depthValue
  | .stencilValue => some .stencilValue
  | .check => some .check
  | .compareFunction => some .compFunc
  | .refVal => some .refValue
  | .mask => some .mask
  | .failOp => some .failOp
  | .depthFailOp => some .depthFailOp
  | .passOp => some .passOp
  | .twoSided => some .twoSided
  | _ => none

theorem yields_compositor
    (h : Yields grammar (.element Production.compositor.element) kinds) :
    ∃ s, kinds = [Keyword.compositor.kind, .label s] := by
  rw [yields_production, Production.alternatives, yields_alternatives_single,
    yields_cons_keyword] at h
  obtain ⟨_, h, rfl⟩ := h
  obtain ⟨label, rest, hlabel, hrest, rfl⟩ := yields_cons.mp h
  obtain ⟨s, rfl⟩ := yields_flexLabel.mp hlabel
  rw [yields_silent.mp (yields_single.mp hrest)]
  exact ⟨s, rfl⟩

theorem yields_target (h : Yields grammar (.element Production.target.element) kinds) :
    ∃ s, kinds = [Keyword.target.kind, .label s] := by
  rw [yields_production, Production.alternatives, yields_alternatives_single,
    yields_cons_keyword] at h
  obtain ⟨_, h, rfl⟩ := h
  obtain ⟨label, rest, hlabel, hrest, rfl⟩ := yields_cons.mp h
  obtain ⟨s, rfl⟩ := yields_label_production.mp hlabel
  rw [yields_silent.mp (yields_single.mp hrest)]
  exact ⟨s, rfl⟩

/-- An opener without arguments. -/
theorem yields_opener {k : Keyword} {p : Production}
    (hp : p.alternatives = [[k.element, openingBrace]])
    (h : Yields grammar (.element p.element) kinds) : kinds = [k.kind] := by
  rw [yields_production, hp, yields_alternatives_single, yields_cons_keyword] at h
  obtain ⟨_, h, rfl⟩ := h
  rw [yields_silent.mp (yields_single.mp h)]

theorem yields_texture (h : Yields grammar (.element Production.texture.element) kinds) :
    ∃ arguments, Action.texture.Takes arguments ∧ kinds = Keyword.texture.kind :: arguments := by
  rw [yields_production, Production.alternatives, yields_alternatives_single,
    yields_cons_keyword] at h
  obtain ⟨arguments, h, rfl⟩ := h
  refine ⟨arguments, ?_, rfl⟩
  obtain ⟨label, _, hlabel, hrest, rfl⟩ := yields_cons.mp h
  obtain ⟨width, _, hwidth, hlast, rfl⟩ := yields_cons.mp hrest
  obtain ⟨height, _, hheight, hformat, rfl⟩ := yields_cons.mp hlast
  obtain ⟨s, rfl⟩ := yields_label_production.mp hlabel
  obtain ⟨w, hw, rfl⟩ := isLength_of_yields rfl hwidth
  obtain ⟨t, ht, rfl⟩ := isLength_of_yields rfl hheight
  obtain ⟨format, hf, rfl⟩ :=
    takesValue_of_yields Keyword.pixelFormat? (by decide) rfl
      (yields_single.mp hformat)
  exact ⟨s, w, t, format, hw, ht, hf, rfl⟩

theorem yields_pass (h : Yields grammar (.element Production.pass.element) kinds) :
    ∃ arguments, Action.pass.Takes arguments ∧ kinds = Keyword.pass.kind :: arguments := by
  rw [yields_production, Production.alternatives, yields_alternatives_single,
    yields_cons_keyword] at h
  obtain ⟨arguments, h, rfl⟩ := h
  refine ⟨arguments, ?_, rfl⟩
  rw [yields_cons_silent fun _ => yields_wordEnds] at h
  obtain ⟨type, rest, htype, hrest, rfl⟩ := yields_cons.mp h
  rw [yields_silent.mp (yields_single.mp hrest), List.append_nil]
  exact takesValue_of_yields _ (by decide) rfl htype

theorem yields_passInput (h : Yields grammar (.element Production.passInput.element) kinds) :
    ∃ arguments, Action.input.Takes arguments ∧ kinds = Keyword.input.kind :: arguments := by
  rw [yields_production, Production.alternatives, yields_alternatives_single,
    yields_cons_keyword] at h
  obtain ⟨arguments, h, rfl⟩ := h
  refine ⟨arguments, .inr ?_, rfl⟩
  obtain ⟨x, _, hlabel, rfl⟩ := yields_cons_number.mp h
  obtain ⟨s, rfl⟩ := yields_label_production.mp (yields_single.mp hlabel)
  exact ⟨x, s, rfl⟩

theorem yields_colourValue
    (h : Yields grammar (.element Production.colourValue.element) kinds) :
    ∃ arguments, Action.colourValue.Takes arguments ∧
      kinds = Keyword.colourValue.kind :: arguments := by
  rw [yields_production, Production.alternatives, yields_alternatives_single,
    yields_cons_keyword] at h
  obtain ⟨arguments, h, rfl⟩ := h
  refine ⟨arguments, ?_, rfl⟩
  obtain ⟨r, _, hgreen, rfl⟩ := yields_cons_number.mp h
  obtain ⟨g, _, hblue, rfl⟩ := yields_cons_number.mp hgreen
  obtain ⟨b, _, halpha, rfl⟩ := yields_cons_number.mp hblue
  obtain ⟨a, rfl⟩ := yields_number.mp (yields_single.mp halpha)
  exact ⟨r, g, b, a, rfl⟩

theorem yields_buffers (h : Yields grammar (.element Production.buffers.element) kinds) :
    ∃ arguments, Action.buffers.Takes arguments ∧ kinds = Keyword.buffers.kind :: arguments := by
  rw [yields_production, Production.alternatives, yields_alternatives_single,
    yields_cons_keyword] at h
  obtain ⟨arguments, h, rfl⟩ := h
  exact ⟨arguments, yields_bufferTypes (yields_single.mp h), rfl⟩

/-- A production with the units of an action yields the action's keyword and what the action
    takes. -/
theorem takes_of_yields {p : Production} {action : Action} (hp : p.action? = some action)
    (h : Yields grammar (.element p.element) kinds) :
    ∃ arguments, action.Takes arguments ∧ kinds = action.keyword.kind :: arguments := by
  cases p <;> cases hp
  case closeBrace =>
    rw [yields_production, Production.alternatives, yields_keywords] at h
    obtain ⟨k, hk, rfl⟩ := h
    rw [List.mem_singleton.mp hk]
    exact ⟨[], rfl, rfl⟩
  case compositor =>
    obtain ⟨s, rfl⟩ := yields_compositor h
    exact ⟨_, ⟨s, rfl⟩, rfl⟩
  case technique | targetOutput => exact ⟨[], rfl, yields_opener rfl h⟩
  case texture => exact yields_texture h
  case target =>
    obtain ⟨s, rfl⟩ := yields_target h
    exact ⟨_, ⟨s, rfl⟩, rfl⟩
  case pass => exact yields_pass h
  case passInput => exact yields_passInput h
  case colourValue => exact yields_colourValue h
  case buffers => exact yields_buffers h
  case materialScheme | passMaterial =>
    obtain ⟨arguments, harguments, rfl⟩ := yields_optionOf rfl h
    exact ⟨arguments, yields_label_production.mp harguments, rfl⟩
  case targetInput =>
    obtain ⟨arguments, harguments, rfl⟩ := yields_optionOf rfl h
    exact ⟨arguments, .inl (takesValue_of_yields _ (by decide) rfl harguments), rfl⟩
  case onlyInitial | check | compareFunction | failOp | depthFailOp | passOp | twoSided =>
    obtain ⟨arguments, harguments, rfl⟩ := yields_optionOf rfl h
    exact ⟨arguments, takesValue_of_yields _ (by decide) rfl harguments, rfl⟩
  all_goals exact yields_numberOption rfl h

/-! ## Yields of the statements -/

/-- A block of options yields its options. -/
theorem yields_optionBlock {k : Keyword} {option p : Production} {options : List Production}
    (hp : p.alternatives = optionBlock k option)
    (hoption : option.alternatives = Production.oneOf options)
    (h : Yields grammar (.element p.element) kinds) :
    ∃ rounds : List (List Token.Kind), kinds = rounds.flatten ∧
      ∀ round ∈ rounds, ∃ p ∈ options, Yields grammar (.element p.element) round := by
  rw [yields_production, hp, optionBlock, yields_alternatives_single,
    yields_cons_silent fun _ => yields_silent, openingBrace,
    yields_cons_silent fun _ => yields_silent] at h
  obtain ⟨inner, rest, hinner, hrest, rfl⟩ := yields_cons.mp h
  rw [yields_silent.mp (yields_single.mp hrest), List.append_nil]
  obtain ⟨rounds, hrounds, rfl⟩ := yields_repeated.mp hinner
  refine ⟨rounds, rfl, fun round hround => ?_⟩
  have hround := hrounds round hround
  rwa [yields_production, hoption, Production.oneOf, yields_oneOf] at hround

/-- Rounds that are each a unit of one of some actions. -/
theorem units_of_rounds (actions : List Action) {options : List Production}
    (hoptions : ∀ p ∈ options, ∃ action ∈ actions, p.action? = some action)
    {rounds : List (List Token.Kind)}
    (h : ∀ round ∈ rounds, ∃ p ∈ options, Yields grammar (.element p.element) round) :
    ∃ units : List UnitShape, (∀ u ∈ units, u.action ∈ actions ∧ u.Fits) ∧
      rounds.flatten = units.flatMap UnitShape.kinds := by
  induction rounds with
  | nil => exact ⟨[], by simp, rfl⟩
  | cons round rounds ih =>
    rw [List.forall_mem_cons] at h
    obtain ⟨⟨p, hp, hround⟩, hrounds⟩ := h
    obtain ⟨units, hunits, heq⟩ := ih hrounds
    obtain ⟨action, haction, hpa⟩ := hoptions p hp
    obtain ⟨arguments, htakes, rfl⟩ := takes_of_yields hpa hround
    refine ⟨⟨action, arguments⟩ :: units, ?_, ?_⟩
    · rw [List.forall_mem_cons]
      exact ⟨⟨haction, htakes⟩, hunits⟩
    · rw [List.flatten_cons, heq]
      rfl

/-- Every yield of a statement is that of some units, of the shape of a statement. -/
theorem statementShape_of_yields
    (h : Yields grammar (.element grammar.statement) kinds) :
    ∃ units, StatementShape units ∧ kinds = units.flatMap UnitShape.kinds := by
  -- a production with the units of one action
  have single : ∀ {p : Production} {action : Action}, p.action? = some action →
      action ∉ clearOptions → action ∉ stencilOptions →
      Yields grammar (.element p.element) kinds →
      ∃ units, StatementShape units ∧ kinds = units.flatMap UnitShape.kinds := by
    intro p action hp hclear hstencil hy
    obtain ⟨arguments, htakes, rfl⟩ := takes_of_yields hp hy
    exact ⟨[⟨action, arguments⟩], .single hclear hstencil htakes, by simp [UnitShape.kinds]⟩
  have h : Yields grammar (.element Production.statement.element) kinds := h
  rw [yields_production, Production.alternatives, Production.oneOf, yields_oneOf] at h
  obtain ⟨p, hmem, h⟩ := h
  cases p with
  | targetOption | passOption =>
    -- the options are one production further down
    rw [yields_production, Production.alternatives, Production.oneOf, yields_oneOf] at h
    obtain ⟨p, hmem, h⟩ := h
    simp only [List.mem_cons, List.not_mem_nil, or_false] at hmem
    obtain rfl | rfl | rfl | rfl | rfl := hmem <;> exact single rfl (by decide) (by decide) h
  | clearSection =>
    obtain ⟨rounds, rfl, hrounds⟩ := yields_optionBlock rfl rfl h
    obtain ⟨units, hunits, heq⟩ := units_of_rounds clearOptions (by decide) hrounds
    exact ⟨units, .clear hunits, heq⟩
  | stencilSection =>
    obtain ⟨rounds, rfl, hrounds⟩ := yields_optionBlock rfl rfl h
    obtain ⟨units, hunits, heq⟩ := units_of_rounds stencilOptions (by decide) hrounds
    exact ⟨units, .stencil hunits, heq⟩
  | compositor | technique | texture | targetOutput | target | pass | closeBrace =>
    exact single rfl (by decide) (by decide) h
  | _ => exact absurd hmem (by decide)

end

/-! ## Cutting into units -/

/-- A token of the kind begins no action. -/
def BeginsNoAction (kind : Token.Kind) : Prop :=
  ∀ (caseSensitive : Bool) (token : Token), token.kind = kind →
    (Keyword.lexicon caseSensitive).action? token.id = none

theorem action?_of_keyword {caseSensitive : Bool} {token : Token} {k : Keyword}
    (h : token.kind = k.kind) :
    (Keyword.lexicon caseSensitive).action? token.id = k.action? := by
  have hid : token.id = k.id := by
    unfold Token.id
    rw [h]
    rfl
  rw [hid, Lexicon.action?, Keyword.lexicon_lookupId]
  rfl

theorem beginsNoAction_keyword {k : Keyword} (h : k.action? = none) : BeginsNoAction k.kind := by
  intro caseSensitive token hkind
  rw [action?_of_keyword hkind, h]

theorem beginsNoAction_number (x : Number) : BeginsNoAction (.number x) := by
  intro caseSensitive token hkind
  unfold Token.id
  rw [hkind]
  rfl

theorem beginsNoAction_label (s : String) : BeginsNoAction (.label s) := by
  intro caseSensitive token hkind
  unfold Token.id
  rw [hkind]
  rfl

theorem beginsNoAction_isLength {k : Keyword} (hk : k.action? = none) {kind : Token.Kind}
    (h : k.IsLength kind) : BeginsNoAction kind := by
  rcases h with rfl | ⟨x, rfl⟩
  · exact beginsNoAction_keyword hk
  · exact beginsNoAction_number x

/-- A keyword that stands for a value begins no action. -/
theorem beginsNoAction_takesValue {α : Type} {value? : Keyword → Option α}
    (hvalue : ∀ k, (value? k).isSome → k.action? = none) {kinds : List Token.Kind}
    (h : Keyword.TakesValue value? kinds) : ∀ kind ∈ kinds, BeginsNoAction kind := by
  obtain ⟨k, hk, rfl⟩ := h
  intro kind hkind
  rw [List.mem_singleton.mp hkind]
  exact beginsNoAction_keyword (hvalue k hk)

/-- No argument of an action begins an action. -/
theorem beginsNoAction_of_takes {action : Action} {kinds : List Token.Kind}
    (h : action.Takes kinds) : ∀ kind ∈ kinds, BeginsNoAction kind := by
  cases action with
  | closeBrace | technique | targetOutput =>
    rw [show kinds = [] from h]
    simp
  | compositor | target | material | materialScheme =>
    obtain ⟨s, rfl⟩ := h
    simp [beginsNoAction_label]
  | texture =>
    obtain ⟨s, width, height, format, hwidth, hheight, hformat, rfl⟩ := h
    have hformat : format.action? = none := by
      revert hformat
      cases format <;> decide
    simp [beginsNoAction_label, beginsNoAction_isLength rfl hwidth,
      beginsNoAction_isLength rfl hheight, beginsNoAction_keyword hformat]
  | input =>
    rcases h with h | ⟨x, s, rfl⟩
    · exact beginsNoAction_takesValue (by intro k; cases k <;> decide) h
    · simp [beginsNoAction_number, beginsNoAction_label]
  | onlyInitial | check | twoSided | pass | compFunc | failOp | depthFailOp | passOp =>
    exact beginsNoAction_takesValue (by intro k; cases k <;> decide) h
  | buffers =>
    obtain ⟨ks, hks, rfl⟩ := h
    intro kind hkind
    obtain ⟨k, hk, rfl⟩ := List.mem_map.mp hkind
    have hbuffer := hks k hk
    refine beginsNoAction_keyword ?_
    revert hbuffer
    cases k <;> decide
  | colourValue =>
    obtain ⟨r, g, b, a, rfl⟩ := h
    simp [beginsNoAction_number]
  | visibilityMask | lodBias | firstRenderQueue | lastRenderQueue | identifier | depthValue
  | stencilValue | refValue | mask =>
    obtain ⟨x, rfl⟩ := h
    simp [beginsNoAction_number]

/-- The shape of a unit. -/
def UnitShape.ofUnit (u : ActionUnit Action) : UnitShape :=
  ⟨u.action, u.arguments.map (·.kind)⟩

/-- Tokens of the kinds of fitting units are cut into these units, with nothing before them. -/
theorem cut_units (caseSensitive : Bool) {units : List UnitShape} (hfits : ∀ u ∈ units, u.Fits)
    {tokens : List Token} (htokens : tokens.map (·.kind) = units.flatMap UnitShape.kinds) :
    ∃ cut, ActionUnit.cut (Keyword.lexicon caseSensitive).action? tokens = ([], cut) ∧
      cut.map UnitShape.ofUnit = units ∧
      ∀ u ∈ cut, u.token.kind = u.action.keyword.kind := by
  induction units generalizing tokens with
  | nil =>
    rw [List.map_eq_nil_iff.mp htokens]
    exact ⟨[], rfl, rfl, by simp⟩
  | cons u units ih =>
    rw [List.forall_mem_cons] at hfits
    rw [List.flatMap_cons, UnitShape.kinds, List.cons_append] at htokens
    obtain ⟨token, tail, rfl, htoken, htail⟩ := List.map_eq_cons_iff.mp htokens
    obtain ⟨arguments, rest, rfl, harguments, hrest⟩ := List.map_eq_append_iff.mp htail
    obtain ⟨cut, hcut, hshape, hkinds⟩ := ih hfits.2 hrest
    refine ⟨⟨u.action, token, arguments⟩ :: cut, ?_, ?_, ?_⟩
    · -- the arguments of the first unit run up to the first token of the next one
      have hleading : ∀ t ∈ arguments,
          (Keyword.lexicon caseSensitive).action? t.id = none := by
        intro t ht
        refine beginsNoAction_of_takes hfits.1 t.kind ?_ caseSensitive t rfl
        rw [← harguments]
        exact List.mem_map.mpr ⟨t, ht, rfl⟩
      have haction : (Keyword.lexicon caseSensitive).action? token.id = some u.action := by
        rw [action?_of_keyword htoken]
        cases u.action <;> rfl
      simp only [ActionUnit.cut, ActionUnit.cut_append hleading hcut, haction]
    · rw [List.map_cons, hshape, UnitShape.ofUnit, harguments]
    · rw [List.forall_mem_cons]
      exact ⟨htoken, hkinds⟩

/-- A statement of a script is cut into units, with nothing before them, which have the shape
    of a statement. -/
theorem cut_statement {caseSensitive : Bool} {text : List Char} {statement : Statement}
    (h : Event.statement statement ∈ (language caseSensitive).events text) :
    ∃ cut, ActionUnit.cut (language caseSensitive).lexicon.action? statement.tokens = ([], cut) ∧
      StatementShape (cut.map UnitShape.ofUnit) ∧
      ∀ u ∈ cut, u.token.kind = u.action.keyword.kind := by
  obtain ⟨units, hshape, hkinds⟩ := statementShape_of_yields (Grammar.yields_of_mem_events h)
  obtain ⟨cut, hcut, rfl, htokens⟩ := cut_units caseSensitive (fun _ => hshape.fits) hkinds
  exact ⟨cut, hcut, hshape, htokens⟩

/-- The tokens of a statement of a script are units, each of which is the keyword of an action
    and the arguments that the action takes; there is one unit, or they are the options of a
    clear or of a stencil block.  These units, and nothing else, are handed to a handler. -/
theorem statement_units {caseSensitive : Bool} {text : List Char} {statement : Statement}
    (h : Event.statement statement ∈ (language caseSensitive).events text) :
    ∃ units : List (ActionUnit Action),
      statement.tokens = units.flatMap (fun u => u.token :: u.arguments) ∧
      (∀ u ∈ units, u.token.kind = u.action.keyword.kind ∧
        u.action.Takes (u.arguments.map (·.kind))) ∧
      StatementShape (units.map UnitShape.ofUnit) ∧
      ∀ {σ ε : Type} (handler : Handler Action σ ε) (s : σ),
        handler.runStatement (language caseSensitive).lexicon.action? statement s =
          handler.runUnits units s := by
  obtain ⟨units, hcut, hshape, hkeyword⟩ := cut_statement h
  refine ⟨units, ActionUnit.tokens_of_cut hcut, ?_, hshape, ?_⟩
  · intro u hu
    exact ⟨hkeyword u hu, hshape.fits (List.mem_map_of_mem hu)⟩
  · intro σ ε handler s
    simp only [Handler.runStatement, hcut]

/-- A target with a name that makes its keyword look like `target_output`. -/
theorem statement_units_target :
    let statement : Statement :=
      ⟨[⟨Keyword.target.kind, 0, 1⟩, ⟨.label "_outputX", 6, 1⟩], 0, 1⟩
    Event.statement statement ∈ (language true).events "target_outputX \x7b".toList ∧
      ∃ units : List (ActionUnit Action), StatementShape (units.map UnitShape.ofUnit) ∧
        statement.tokens = units.flatMap (fun u => u.token :: u.arguments) := by
  intro statement
  have hevents : (language true).events "target_outputX \x7b".toList =
      [.statement statement] := rfl
  have hmem : Event.statement statement ∈ (language true).events "target_outputX \x7b".toList := by
    rw [hevents]
    exact List.mem_singleton.mpr rfl
  obtain ⟨units, htokens, _, hshape, _⟩ := statement_units hmem
  exact ⟨hmem, units, hshape, htokens⟩

end Script
end Compositing
