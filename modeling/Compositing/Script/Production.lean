import Compositing.Language
import Compositing.Script.Keyword

/-! # The language of compositor scripts

    The grammar is flat: a block opener such as `pass render_quad {` is one
    statement and its closing brace another.  Nesting is tracked while the
    statements are carried out, not by the grammar.  Only the option blocks of
    clear and stencil passes are each one statement, with silent braces.

    Alternatives are tried in order and a terminal matches at the front, so
    longer keywords come first.  A lookahead skips white space like any other
    element, so `(?!<Word_Continues>)` only guards keywords that another
    keyword follows; it would refuse labels that begin with an underscore. -/

namespace Compositing.Script

/-! ## Productions -/

/-- The productions of the grammar, each of which has a rule. -/
inductive Production where
  | script | statement | closeBrace
  -- compositors and techniques
  | compositor | technique | texture | widthOption | heightOption | pixelFormat
  -- targets
  | targetOutput | target | targetOption | targetInput | inputMode | onlyInitial | visibilityMask
  | lodBias | materialScheme
  -- passes
  | pass | passType | passOption | passMaterial | passInput | passFirstRenderQueue
  | passLastRenderQueue | passIdentifier
  -- clear blocks
  | clearSection | clearOption | buffers | bufferType | colour | depth | stencil | colourValue
  | depthValue | stencilValue
  -- stencil blocks
  | stencilSection | stencilOption | check | compareFunction | compFunc | refVal | mask | failOp
  | depthFailOp | passOp | twoSided | stencilOperation
  -- shared
  | onOff | wordContinues | label | flexLabel | quotedLabel | spacedLabel
  deriving DecidableEq

namespace Production

/-- Every production, in the order of the rules. -/
def all : List Production :=
  [.script, .statement, .closeBrace, .compositor, .technique, .texture, .widthOption,
   .heightOption, .pixelFormat, .targetOutput, .target, .targetOption, .targetInput, .inputMode,
   .onlyInitial, .visibilityMask, .lodBias, .materialScheme, .pass, .passType, .passOption,
   .passMaterial, .passInput, .passFirstRenderQueue, .passLastRenderQueue, .passIdentifier,
   .clearSection, .clearOption, .buffers, .bufferType, .colour, .depth, .stencil, .colourValue,
   .depthValue, .stencilValue, .stencilSection, .stencilOption, .check, .compareFunction,
   .compFunc, .refVal, .mask, .failOp, .depthFailOp, .passOp, .twoSided, .stencilOperation,
   .onOff, .wordContinues, .label, .flexLabel, .quotedLabel, .spacedLabel]

/-- The index of a production's rule. -/
def id (p : Production) : Nat := p.ctorIdx

/-- The name of a production's rule. -/
def name : Production → String
  | .script => "Script"
  | .statement => "Statement"
  | .closeBrace => "CloseBrace"
  | .compositor => "Compositor"
  | .technique => "Technique"
  | .texture => "Texture"
  | .widthOption => "WidthOption"
  | .heightOption => "HeightOption"
  | .pixelFormat => "PixelFormat"
  | .targetOutput => "TargetOutput"
  | .target => "Target"
  | .targetOption => "TargetOption"
  | .targetInput => "TargetInput"
  | .inputMode => "InputMode"
  | .onlyInitial => "OnlyInitial"
  | .visibilityMask => "VisibilityMask"
  | .lodBias => "LodBias"
  | .materialScheme => "MaterialScheme"
  | .pass => "Pass"
  | .passType => "PassType"
  | .passOption => "PassOption"
  | .passMaterial => "PassMaterial"
  | .passInput => "PassInput"
  | .passFirstRenderQueue => "PassFirstRenderQueue"
  | .passLastRenderQueue => "PassLastRenderQueue"
  | .passIdentifier => "PassIdentifier"
  | .clearSection => "ClearSection"
  | .clearOption => "ClearOption"
  | .buffers => "Buffers"
  | .bufferType => "BufferType"
  | .colour => "Colour"
  | .depth => "Depth"
  | .stencil => "Stencil"
  | .colourValue => "ColourValue"
  | .depthValue => "DepthValue"
  | .stencilValue => "StencilValue"
  | .stencilSection => "StencilSection"
  | .stencilOption => "StencilOption"
  | .check => "Check"
  | .compareFunction => "CompareFunction"
  | .compFunc => "CompFunc"
  | .refVal => "RefVal"
  | .mask => "Mask"
  | .failOp => "FailOp"
  | .depthFailOp => "DepthFailOp"
  | .passOp => "PassOp"
  | .twoSided => "TwoSided"
  | .stencilOperation => "StencilOperation"
  | .onOff => "On_Off"
  | .wordContinues => "Word_Continues"
  | .label => "Label"
  | .flexLabel => "Flex_Label"
  | .quotedLabel => "Quoted_Label"
  | .spacedLabel => "Spaced_Label"

/-! ## Elements of the rules -/

/-- A production as an element. -/
def element (p : Production) : Element := .rule p.name p.id

/-- Alternatives that are each one production. -/
def oneOf (productions : List Production) : List (List Element) := productions.map ([element ·])

end Production

/-- A literal that yields no token. -/
def silent (text : String) : Element := .terminal text false none

/-- The brace that opens a block. -/
def openingBrace : Element := silent "\x7b"

/-- The brace that closes an option block. -/
def closingBrace : Element := silent "\x7d"

/-- Nothing, unless an underscore goes on with the word. -/
def wordEnds : Element := .notAhead Production.wordContinues.element

/-- A keyword that is not the beginning of a longer word. -/
def wholeWord (k : Keyword) : List (List Element) := [[k.element, wordEnds]]

/-- A keyword and a number. -/
def numberOption (k : Keyword) (name : String) : List (List Element) := [[k.element, .number name]]

/-- A keyword and a production. -/
def optionOf (k : Keyword) (value : Production) : List (List Element) :=
  [[k.element, value.element]]

/-- A silent keyword and a block of options, each of the production. -/
def optionBlock (k : Keyword) (option : Production) : List (List Element) :=
  [[silent k.text, openingBrace, .repeated option.element, closingBrace]]

/-! ## The rules -/

/-- The alternatives of a production. -/
def Production.alternatives : Production → List (List Element)
  | .script => [[.repeated Production.statement.element]]
  | .statement =>
    oneOf [.compositor, .technique, .texture, .targetOutput, .target, .pass, .targetOption,
      .passOption, .clearSection, .stencilSection, .closeBrace]
  | .closeBrace => Keyword.oneOf [.closeBrace]
  | .compositor => [[Keyword.compositor.element, Production.flexLabel.element, openingBrace]]
  | .technique => [[Keyword.technique.element, openingBrace]]
  | .texture =>
    [[Keyword.texture.element, Production.label.element, Production.widthOption.element,
      Production.heightOption.element, Production.pixelFormat.element]]
  | .widthOption => [[Keyword.targetWidth.element], [.number "width"]]
  | .heightOption => [[Keyword.targetHeight.element], [.number "height"]]
  | .pixelFormat =>
    Keyword.oneOf [.pfA8R8G8B8, .pfR8G8B8A8, .pfR8G8B8, .pfFloat16Rgba, .pfFloat16Rgb,
      .pfFloat16R, .pfFloat32Rgba, .pfFloat32Rgb, .pfFloat32R]
  | .targetOutput => [[Keyword.targetOutput.element, openingBrace]]
  | .target => [[Keyword.target.element, Production.label.element, openingBrace]]
  | .targetOption =>
    oneOf [.targetInput, .onlyInitial, .visibilityMask, .lodBias, .materialScheme]
  | .targetInput => optionOf .input .inputMode
  | .inputMode => Keyword.oneOf [.none, .previous]
  | .onlyInitial => optionOf .onlyInitial .onOff
  | .visibilityMask => numberOption .visibilityMask "mask"
  | .lodBias => numberOption .lodBias "lodbias"
  | .materialScheme => optionOf .materialScheme .label
  | .pass => [[Keyword.pass.element, wordEnds, Production.passType.element, openingBrace]]
  | .passType => Keyword.oneOf [.renderQuad, .clear, .stencil, .renderScene]
  | .passOption =>
    oneOf [.passFirstRenderQueue, .passLastRenderQueue, .passIdentifier, .passMaterial,
      .passInput]
  | .passMaterial => optionOf .material .label
  | .passInput => [[Keyword.input.element, .number "id", Production.label.element]]
  | .passFirstRenderQueue => numberOption .firstRenderQueue "queue"
  | .passLastRenderQueue => numberOption .lastRenderQueue "queue"
  | .passIdentifier => numberOption .identifier "id"
  | .clearSection => optionBlock .clear .clearOption
  | .clearOption => oneOf [.buffers, .colourValue, .depthValue, .stencilValue]
  | .buffers => [[Keyword.buffers.element, .repeated Production.bufferType.element]]
  | .bufferType => oneOf [.colour, .depth, .stencil]
  | .colour => wholeWord .colour
  | .depth => wholeWord .depth
  | .stencil => wholeWord .stencil
  | .colourValue =>
    [[Keyword.colourValue.element, .number "red", .number "green", .number "blue",
      .number "alpha"]]
  | .depthValue => numberOption .depthValue "depth"
  | .stencilValue => numberOption .stencilValue "val"
  | .stencilSection => optionBlock .stencil .stencilOption
  | .stencilOption =>
    oneOf [.check, .compareFunction, .refVal, .mask, .failOp, .depthFailOp, .passOp, .twoSided]
  | .check => optionOf .check .onOff
  | .compareFunction => optionOf .compFunc .compFunc
  | .compFunc =>
    Keyword.oneOf [.alwaysFail, .alwaysPass, .lessEqual, .less, .equal, .notEqual,
      .greaterEqual, .greater]
  | .refVal => numberOption .refValue "val"
  | .mask => numberOption .mask "mask"
  | .failOp => optionOf .failOp .stencilOperation
  | .depthFailOp => optionOf .depthFailOp .stencilOperation
  | .passOp => optionOf .passOp .stencilOperation
  | .twoSided => optionOf .twoSided .onOff
  | .stencilOperation =>
    Keyword.oneOf [.keep, .zero, .replace, .incrementWrap, .increment, .decrementWrap,
      .decrement, .invert]
  | .onOff => Keyword.oneOf [.on, .off]
  | .wordContinues => [[silent "_"]]
  | .label => [[.label "label"]]
  | .flexLabel => oneOf [.quotedLabel, .spacedLabel]
  | .quotedLabel => [[silent "\"", Production.spacedLabel.element, silent "\""]]
  | .spacedLabel => [[.run ",\n\r\t\x7b\x7d\"" true]]

/-- The rule of a production. -/
def Production.rule (p : Production) : Rule := ⟨p.name, p.alternatives⟩

/-- The grammar of compositor scripts. -/
def grammar : Grammar := ⟨Production.all.map Production.rule, Production.script.id⟩

/-- The text of the grammar. -/
def grammarText : String := "
<Script> ::= \x7b<Statement>\x7d
<Statement> ::= <Compositor> | <Technique> | <Texture> | <TargetOutput> | <Target>
    | <Pass> | <TargetOption> | <PassOption> | <ClearSection> | <StencilSection>
    | <CloseBrace>
<CloseBrace> ::= '\x7d'

<Compositor> ::= 'compositor' <Flex_Label> -'\x7b'
<Technique> ::= 'technique' -'\x7b'
<Texture> ::= 'texture' <Label> <WidthOption> <HeightOption> <PixelFormat>
<WidthOption> ::= 'target_width' | <#width>
<HeightOption> ::= 'target_height' | <#height>
<PixelFormat> ::= 'PF_A8R8G8B8' | 'PF_R8G8B8A8' | 'PF_R8G8B8'
    | 'PF_FLOAT16_RGBA' | 'PF_FLOAT16_RGB' | 'PF_FLOAT16_R'
    | 'PF_FLOAT32_RGBA' | 'PF_FLOAT32_RGB' | 'PF_FLOAT32_R'

<TargetOutput> ::= 'target_output' -'\x7b'
<Target> ::= 'target' <Label> -'\x7b'
<TargetOption> ::= <TargetInput> | <OnlyInitial> | <VisibilityMask> | <LodBias>
    | <MaterialScheme>
<TargetInput> ::= 'input' <InputMode>
<InputMode> ::= 'none' | 'previous'
<OnlyInitial> ::= 'only_initial' <On_Off>
<VisibilityMask> ::= 'visibility_mask' <#mask>
<LodBias> ::= 'lod_bias' <#lodbias>
<MaterialScheme> ::= 'material_scheme' <Label>

<Pass> ::= 'pass' (?!<Word_Continues>) <PassType> -'\x7b'
<PassType> ::= 'render_quad' | 'clear' | 'stencil' | 'render_scene'
<PassOption> ::= <PassFirstRenderQueue> | <PassLastRenderQueue> | <PassIdentifier>
    | <PassMaterial> | <PassInput>
<PassMaterial> ::= 'material' <Label>
<PassInput> ::= 'input' <#id> <Label>
<PassFirstRenderQueue> ::= 'first_render_queue' <#queue>
<PassLastRenderQueue> ::= 'last_render_queue' <#queue>
<PassIdentifier> ::= 'identifier' <#id>

<ClearSection> ::= -'clear' -'\x7b' \x7b<ClearOption>\x7d -'\x7d'
<ClearOption> ::= <Buffers> | <ColourValue> | <DepthValue> | <StencilValue>
<Buffers> ::= 'buffers' \x7b<BufferType>\x7d
<BufferType> ::= <Colour> | <Depth> | <Stencil>
<Colour> ::= 'colour' (?!<Word_Continues>)
<Depth> ::= 'depth' (?!<Word_Continues>)
<Stencil> ::= 'stencil' (?!<Word_Continues>)
<ColourValue> ::= 'colour_value' <#red> <#green> <#blue> <#alpha>
<DepthValue> ::= 'depth_value' <#depth>
<StencilValue> ::= 'stencil_value' <#val>

<StencilSection> ::= -'stencil' -'\x7b' \x7b<StencilOption>\x7d -'\x7d'
<StencilOption> ::= <Check> | <CompareFunction> | <RefVal> | <Mask> | <FailOp>
    | <DepthFailOp> | <PassOp> | <TwoSided>
<Check> ::= 'check' <On_Off>
<CompareFunction> ::= 'comp_func' <CompFunc>
<CompFunc> ::= 'always_fail' | 'always_pass' | 'less_equal' | 'less' | 'equal'
    | 'not_equal' | 'greater_equal' | 'greater'
<RefVal> ::= 'ref_value' <#val>
<Mask> ::= 'mask' <#mask>
<FailOp> ::= 'fail_op' <StencilOperation>
<DepthFailOp> ::= 'depth_fail_op' <StencilOperation>
<PassOp> ::= 'pass_op' <StencilOperation>
<TwoSided> ::= 'two_sided' <On_Off>
<StencilOperation> ::= 'keep' | 'zero' | 'replace' | 'increment_wrap' | 'increment'
    | 'decrement_wrap' | 'decrement' | 'invert'

<On_Off> ::= 'on' | 'off'
<Word_Continues> ::= -'_'
<Label> ::= <@label>
<Flex_Label> ::= <Quoted_Label> | <Spaced_Label>
<Quoted_Label> ::= -'\"' <Spaced_Label> -'\"'
<Spaced_Label> ::= (!,\\n\\r\\t\x7b\x7d\")
"

/-- A production's index leads to its rule. -/
theorem grammar_rule? (p : Production) : grammar.rule? p.id = some p.rule := by
  cases p <;> rfl

/-! ## The language -/

/-- The language of compositor scripts, in which case counts or not. -/
def language (caseSensitive : Bool) : Language Action :=
  ⟨"compositor", grammar, Keyword.lexicon caseSensitive⟩

end Compositing.Script
