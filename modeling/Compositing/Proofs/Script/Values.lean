import Compositing.Proofs.Script.Consistency
import Compositing.Proofs.Script.Description

/-! # What described units ask for

    Where the section a unit belongs to is open, a described unit is read to
    the command it describes, wherever its tokens stand in the text.
    `Reading.Gives` is the triple for readings that succeed: the kinds of the
    arguments before the reading, its value, and the kinds of those left. -/

namespace Compositing.Script

namespace Reading
variable {α β : Type} {kinds between left : List Token.Kind}

/-- On arguments of the kinds the reading has the value and leaves arguments of the kinds
    `left`. -/
def Gives (kinds : List Token.Kind) (reading : Reading α) (value : α)
    (left : List Token.Kind) : Prop :=
  ∀ arguments, Arguments.Have kinds arguments →
    ∃ rest, reading.run arguments = (.ok value, rest) ∧ Arguments.Have left rest

theorem gives_pure (value : α) : Gives kinds (pure value : Reading α) value kinds :=
  fun arguments h => ⟨arguments, rfl, h⟩

theorem gives_bind {first : Reading α} {next : α → Reading β} {a : α} {b : β}
    (hfirst : Gives kinds first a between) (hnext : Gives between (next a) b left) :
    Gives kinds (first >>= next) b left := by
  intro arguments h
  obtain ⟨rest, hrun, hrest⟩ := hfirst arguments h
  obtain ⟨rest', hrun', hrest'⟩ := hnext rest hrest
  refine ⟨rest', ?_, hrest'⟩
  rw [run_bind, hrun]
  exact hrun'

/-! ## Arguments -/

theorem gives_label (s : String) : Gives (.label s :: kinds) label s kinds := by
  intro arguments h
  obtain ⟨tokens, endLine⟩ := arguments
  obtain ⟨t, rest, rfl, ht, hrest⟩ := List.map_eq_cons_iff.mp h
  obtain ⟨_, offset, line⟩ := t
  cases ht
  exact ⟨⟨rest, endLine⟩, rfl, hrest⟩

theorem gives_number (x : Number) : Gives (.number x :: kinds) number x kinds := by
  intro arguments h
  obtain ⟨tokens, endLine⟩ := arguments
  obtain ⟨t, rest, rfl, ht, hrest⟩ := List.map_eq_cons_iff.mp h
  obtain ⟨_, offset, line⟩ := t
  cases ht
  exact ⟨⟨rest, endLine⟩, rfl, hrest⟩

theorem gives_integer32 (n : Numeral) :
    Gives (.number n.value :: kinds) integer32 n.integer32 kinds :=
  gives_bind (gives_number n.value) (gives_pure _)

theorem gives_integer8 (n : Numeral) :
    Gives (.number n.value :: kinds) integer8 n.integer8 kinds :=
  gives_bind (gives_number n.value) (gives_pure _)

theorem gives_single (n : Numeral) : Gives (.number n.value :: kinds) single n.single kinds :=
  gives_bind (gives_number n.value) (gives_pure _)

theorem gives_valueOf {role : Keyword.Role} {value? : Keyword → Option α} {k : Keyword} {value : α}
    (hvalue : value? k = some value) (line : Nat) :
    Gives (k.kind :: kinds) (valueOf role value? line) value kinds := by
  intro arguments h
  obtain ⟨rest, hrun, hrest⟩ := run_keyword line h
  refine ⟨rest, ?_, hrest⟩
  unfold valueOf
  rw [run_bind, hrun]
  simp only [hvalue]
  rfl

theorem gives_switch (on : Bool) (line : Nat) :
    Gives ((switchKeyword on).kind :: kinds) (switch line) on kinds :=
  gives_valueOf (by cases on <;> rfl) line

theorem gives_stencilOperation (op : StencilOperation) (line : Nat) :
    Gives (op.keyword.kind :: kinds) (stencilOperation line) op kinds :=
  gives_valueOf (by cases op <;> rfl) line

/-- The length of a texture, with 0 for that of the render target. -/
theorem gives_lengthOr (k : Keyword) (hk : k.id ≠ Token.numberId) (length : Option Numeral) :
    Gives ((TextureText.length k length).kind :: kinds) (lengthOr k)
      ((length.map Numeral.integer32).getD 0) kinds := by
  intro arguments h
  obtain ⟨tokens, endLine⟩ := arguments
  obtain ⟨t, rest, rfl, ht, hrest⟩ := List.map_eq_cons_iff.mp h
  rw [run_lengthOr]
  cases length with
  | none =>
    have hpeek : (Arguments.mk (t :: rest) endLine).peekId? = some k.id := by
      simp only [Arguments.peekId?, List.head?_cons, Option.map_some, Token.id, ht]
      rfl
    rw [if_pos hpeek]
    exact ⟨⟨rest, endLine⟩, rfl, hrest⟩
  | some n =>
    have hpeek : ¬ (Arguments.mk (t :: rest) endLine).peekId? = some k.id := by
      simp only [Arguments.peekId?, List.head?_cons, Option.map_some, Token.id, ht]
      intro heq
      exact hk (Option.some.inj heq).symm
    rw [if_neg hpeek]
    exact gives_integer32 n _ h

/-- A frame buffer is united with those after it. -/
theorem listed_cons (flag : BufferFlag) (flags : List BufferFlag) :
    (BufferFlag.listed [flag]).union (BufferFlag.listed flags) =
      BufferFlag.listed (flag :: flags) := by
  cases flag <;> simp [BufferFlag.listed, Buffers.union]

theorem gives_buffers (flags : List BufferFlag) (line : Nat) :
    Gives (flags.map fun flag => flag.keyword.kind) (buffers line flags.length)
      (BufferFlag.listed flags) [] := by
  induction flags with
  | nil => exact gives_pure _
  | cons flag flags ih =>
    have hflag : Keyword.buffer? flag.keyword = some (BufferFlag.listed [flag]) := by
      cases flag <;> rfl
    rw [← listed_cons]
    exact gives_bind (gives_valueOf hflag line) (gives_bind ih (gives_pure _))

end Reading

open Reading

/-! ## Objects -/

section
variable {context : Context} {token : Token} {kinds : List Token.Kind} {handle : Handle}

theorem gives_objectOf {within : Section} (hin : context.innermost = within)
    (hhandle : context.handle? within = some handle) :
    Gives kinds (objectOf context token within) handle kinds := by
  have h : objectOf context token within = (pure handle : Reading Handle) := by
    unfold objectOf requireIn handleOf Context.handle
    rw [if_pos hin, hhandle]
    rfl
  rw [h]
  exact gives_pure handle

theorem gives_setPass (hin : context.innermost = .pass)
    (hhandle : context.handle? .pass = some handle) (attr : PassAttribute) :
    Gives kinds (setPass context token attr) (.set handle (.pass attr)) kinds :=
  gives_bind (gives_objectOf hin hhandle) (gives_pure _)

/-- A target takes an attribute, an output target only an input mode. -/
theorem gives_setTarget (hin : context.innermost = .target)
    (hhandle : context.handle? .target = some handle) {attr : TargetAttribute}
    (hattr : context.outputTarget = false ∨ ∃ mode, attr = .inputMode mode) :
    Gives kinds (setTarget context token attr) (.set handle (.target attr)) kinds := by
  have hobject : objectOf context token .target = handleOf context token .target := by
    unfold objectOf requireIn
    rw [if_pos hin]
    rfl
  have hset : Gives kinds
      (handleOf context token .target >>= fun target => pure (Command.set target (.target attr)))
      (.set handle (.target attr)) kinds := by
    rw [← hobject]
    exact gives_bind (gives_objectOf hin hhandle) (gives_pure _)
  unfold setTarget requireIn
  rw [if_pos hin]
  rcases hattr with houtput | ⟨mode, rfl⟩
  · rw [houtput]
    exact hset
  · cases context.outputTarget with
    | true => exact hset
    | false => exact hset

end

/-! ## Units -/

/-- A unit with the kinds asks for the command, wherever its tokens stand. -/
def Asks (context : Context) (u : UnitShape) (command : Command) : Prop :=
  ∀ token, Gives u.arguments (Command.read context token u.action) command []

section
variable {context : Context} {handle : Handle}

theorem asks_close (hin : context.innermost ≠ .none) : Asks context ⟨.closeBrace, []⟩ .close := by
  intro token
  show Gives [] (if context.innermost = .none then throw (.refused .strayBrace)
    else pure Command.close) .close []
  rw [if_neg hin]
  exact gives_pure _

theorem asks_compositor (hin : context.innermost = .none) (name : String) :
    Asks context ⟨.compositor, [.label name]⟩ (.openCompositor name) := by
  intro token
  have hrequire : requireIn context token .none = (pure () : Reading Unit) := if_pos hin
  show Gives [.label name]
    (requireIn context token .none >>= fun _ => label >>= fun name =>
      pure (Command.openCompositor name)) _ []
  rw [hrequire]
  exact gives_bind (gives_pure ()) (gives_bind (gives_label name) (gives_pure _))

theorem asks_technique (hin : context.innermost = .compositor)
    (hhandle : context.handle? .compositor = some handle) :
    Asks context ⟨.technique, []⟩ (.openTechnique handle) :=
  fun _ => gives_bind (gives_objectOf hin hhandle) (gives_pure _)

section
variable (hin : context.innermost = .technique)
  (hhandle : context.handle? .technique = some handle)
include hin hhandle

theorem asks_texture (t : TextureText) :
    Asks context t.unit.shape (.set handle (.texture t.texture)) := by
  intro token
  have hformat : Keyword.pixelFormat? t.format.keyword = some t.format := by
    cases t.format <;> rfl
  exact gives_bind (gives_objectOf hin hhandle)
    (gives_bind (gives_label t.name)
      (gives_bind (gives_lengthOr .targetWidth (by decide) t.width)
        (gives_bind (gives_lengthOr .targetHeight (by decide) t.height)
          (gives_bind (gives_valueOf hformat token.line) (gives_pure _)))))

theorem asks_target (name : String) :
    Asks context ⟨.target, [.label name]⟩ (.openTarget handle name) :=
  fun _ => gives_bind (gives_objectOf hin hhandle) (gives_bind (gives_label name) (gives_pure _))

theorem asks_targetOutput : Asks context ⟨.targetOutput, []⟩ (.openOutputTarget handle) :=
  fun _ => gives_bind (gives_objectOf hin hhandle) (gives_pure _)

end

section
variable (hin : context.innermost = .target) (hhandle : context.handle? .target = some handle)
include hin hhandle

theorem asks_pass (type : PassType) :
    Asks context ⟨.pass, [type.keyword.kind]⟩ (.openPass handle type) := by
  intro token
  have htype : Keyword.passType? type.keyword = some type := by cases type <;> rfl
  exact gives_bind (gives_objectOf hin hhandle)
    (gives_bind (gives_valueOf htype token.line) (gives_pure _))

theorem asks_inputMode (mode : InputMode) :
    Asks context ⟨.input, [mode.keyword.kind]⟩ (.set handle (.target (.inputMode mode))) := by
  intro token
  have hmode : Keyword.inputMode? mode.keyword = some mode := by cases mode <;> rfl
  show Gives [mode.keyword.kind] (readInput context token) _ []
  unfold readInput
  rw [hin]
  exact gives_bind (gives_valueOf hmode token.line)
    (gives_setTarget hin hhandle (.inr ⟨mode, rfl⟩))

theorem asks_targetOption (houtput : context.outputTarget = false) (o : TargetOption) :
    Asks context o.unit.shape (.set handle (.target o.attr)) := by
  intro token
  have hset : ∀ attr, Gives [] (setTarget context token attr) (.set handle (.target attr)) [] :=
    fun attr => gives_setTarget hin hhandle (.inl houtput)
  cases o with
  | onlyInitial on => exact gives_bind (gives_switch on token.line) (hset _)
  | visibilityMask mask => exact gives_bind (gives_integer32 mask) (hset _)
  | lodBias bias => exact gives_bind (gives_single bias) (hset _)
  | materialScheme scheme => exact gives_bind (gives_label scheme) (hset _)

end

section
variable (hin : context.innermost = .pass) (hhandle : context.handle? .pass = some handle)
include hin hhandle

theorem asks_passOption (o : PassOption) :
    Asks context o.unit.shape (.set handle (.pass o.attr)) := by
  intro token
  have hset : ∀ attr, Gives [] (setPass context token attr) (.set handle (.pass attr)) [] :=
    fun attr => gives_setPass hin hhandle attr
  cases o with
  | material name => exact gives_bind (gives_label name) (hset _)
  | input slot texture =>
    show Gives [.number slot.value, .label texture] (readInput context token) _ []
    unfold readInput
    rw [hin]
    exact gives_bind (gives_integer32 slot) (gives_bind (gives_label texture) (hset _))
  | firstRenderQueue queue => exact gives_bind (gives_integer8 queue) (hset _)
  | lastRenderQueue queue => exact gives_bind (gives_integer8 queue) (hset _)
  | identifier id => exact gives_bind (gives_integer32 id) (hset _)

theorem asks_clearOption (o : ClearOption) :
    Asks context o.unit.shape (.set handle (.pass o.attr)) := by
  intro token
  have hset : ∀ attr, Gives [] (setPass context token attr) (.set handle (.pass attr)) [] :=
    fun attr => gives_setPass hin hhandle attr
  cases o with
  | buffers flags =>
    -- as many buffers are read as there are arguments
    intro arguments h
    have hkinds : (ClearOption.buffers flags).unit.shape.arguments =
        flags.map fun flag => flag.keyword.kind := by
      simp [ClearOption.unit, UnitText.shape, Term.kind]
    rw [hkinds] at h
    have hlength : arguments.remaining = flags.length := by
      have hlengths := congrArg List.length h
      rwa [List.length_map, List.length_map] at hlengths
    have hread : (Command.read context token (ClearOption.buffers flags).unit.shape.action).run
        arguments = (buffers token.line arguments.remaining >>= fun found =>
          setPass context token (.clearBuffers found)).run arguments := rfl
    have hbuffers : Gives (flags.map fun flag => flag.keyword.kind)
        (buffers token.line flags.length >>= fun found =>
          setPass context token (.clearBuffers found))
        (.set handle (.pass (.clearBuffers (BufferFlag.listed flags)))) [] :=
      gives_bind (gives_buffers flags token.line) (hset _)
    rw [hread, hlength]
    exact hbuffers arguments h
  | colourValue red green blue alpha =>
    have hcolour : Gives [.number red.value, .number green.value, .number blue.value,
        .number alpha.value] readColour ⟨red.single, green.single, blue.single, alpha.single⟩ [] :=
      gives_bind (gives_single red) (gives_bind (gives_single green)
        (gives_bind (gives_single blue) (gives_bind (gives_single alpha) (gives_pure _))))
    exact gives_bind hcolour (hset _)
  | depthValue depth => exact gives_bind (gives_single depth) (hset _)
  | stencilValue value => exact gives_bind (gives_integer32 value) (hset _)

theorem asks_stencilOption (o : StencilOption) :
    Asks context o.unit.shape (.set handle (.pass o.attr)) := by
  intro token
  have hset : ∀ attr, Gives [] (setPass context token attr) (.set handle (.pass attr)) [] :=
    fun attr => gives_setPass hin hhandle attr
  cases o with
  | check on => exact gives_bind (gives_switch on token.line) (hset _)
  | compFunc func =>
    have hfunc : Keyword.compareFunction? func.keyword = some func := by cases func <;> rfl
    exact gives_bind (gives_valueOf hfunc token.line) (hset _)
  | refValue value => exact gives_bind (gives_integer32 value) (hset _)
  | mask value => exact gives_bind (gives_integer32 value) (hset _)
  | failOp op => exact gives_bind (gives_stencilOperation op token.line) (hset _)
  | depthFailOp op => exact gives_bind (gives_stencilOperation op token.line) (hset _)
  | passOp op => exact gives_bind (gives_stencilOperation op token.line) (hset _)
  | twoSided on => exact gives_bind (gives_switch on token.line) (hset _)

end
end
end Compositing.Script
