import Mathlib.Data.List.Dedup
import Mathlib.Data.List.Sort
import Compositing.Proofs.Recognition.Writing
import Compositing.Proofs.Scene.Fields
import Compositing.Proofs.Script.Shape
import Compositing.Scene.Registry

/-! # Descriptions of compositors

    A description says what an author means: compositors with techniques, and
    in each technique, in any order, textures, targets and blocks of the output
    target, down to the options of a pass.  It is written as a sequence of
    statements, and it stands for compositors with a child for each described
    one.  Of the values that are described for a field the last one counts; a
    field that is not described has its default. -/

namespace Compositing

/-! ## Values -/

namespace Numeral

/-- The value as an integer: the fraction is cut off and what does not fit saturates. -/
def integer32 (n : Numeral) : UInt32 := UInt32.ofNat (n.value.truncate (UInt32.size - 1))

/-- The value as a small integer: the fraction is cut off and what does not fit saturates. -/
def integer8 (n : Numeral) : UInt8 := UInt8.ofNat (n.value.truncate (UInt8.size - 1))

/-- The value in single precision. -/
def single (n : Numeral) : Number := n.value.convert Number.single

end Numeral

/-- The keyword for a pixel format. -/
def PixelFormat.keyword : PixelFormat → Keyword
  | .a8r8g8b8 => .pfA8R8G8B8
  | .r8g8b8a8 => .pfR8G8B8A8
  | .r8g8b8 => .pfR8G8B8
  | .float16R => .pfFloat16R
  | .float16Rgb => .pfFloat16Rgb
  | .float16Rgba => .pfFloat16Rgba
  | .float32R => .pfFloat32R
  | .float32Rgb => .pfFloat32Rgb
  | .float32Rgba => .pfFloat32Rgba

/-- The keyword for an input mode. -/
def InputMode.keyword : InputMode → Keyword
  | .none => .none
  | .previous => .previous

/-- The keyword for a pass type. -/
def PassType.keyword : PassType → Keyword
  | .clear => .clear
  | .stencil => .stencil
  | .renderScene => .renderScene
  | .renderQuad => .renderQuad

/-- The keyword for a comparison. -/
def CompareFunction.keyword : CompareFunction → Keyword
  | .alwaysFail => .alwaysFail
  | .alwaysPass => .alwaysPass
  | .less => .less
  | .lessEqual => .lessEqual
  | .equal => .equal
  | .notEqual => .notEqual
  | .greaterEqual => .greaterEqual
  | .greater => .greater

/-- The keyword for a stencil operation. -/
def StencilOperation.keyword : StencilOperation → Keyword
  | .keep => .keep
  | .zero => .zero
  | .replace => .replace
  | .increment => .increment
  | .decrement => .decrement
  | .incrementWrap => .incrementWrap
  | .decrementWrap => .decrementWrap
  | .invert => .invert

namespace Script

/-- The keyword for a switch value. -/
def switchKeyword : Bool → Keyword
  | true => .on
  | false => .off

/-- A frame buffer to be cleared. -/
inductive BufferFlag where
  | colour | depth | stencil
  deriving DecidableEq

namespace BufferFlag

def keyword : BufferFlag → Keyword
  | colour => .colour
  | depth => .depth
  | stencil => .stencil

/-- The buffers that are listed. -/
def listed (flags : List BufferFlag) : Buffers :=
  ⟨flags.contains colour, flags.contains depth, flags.contains stencil⟩

end BufferFlag

/-! ## Statements -/

/-- An argument of an action. -/
inductive Term where
  | keyword (k : Keyword)
  | number (n : Numeral)
  | label (s : String)

namespace Term

/-- How an argument is written. -/
def piece : Term → Piece
  | keyword k => .word k.text.toList
  | number n => .number n
  | label s => .label s

/-- The kind of an argument's token. -/
def kind : Term → Token.Kind
  | keyword k => k.kind
  | number n => .number n.value
  | label s => .label s

end Term

/-- An action and its arguments. -/
structure UnitText where
  action : Action
  terms : List Term

namespace UnitText

/-- How a unit is written. -/
def pieces (u : UnitText) : List Piece :=
  .word u.action.keyword.text.toList :: u.terms.map Term.piece

/-- The shape of a unit's tokens. -/
def shape (u : UnitText) : UnitShape := ⟨u.action, u.terms.map Term.kind⟩

end UnitText

/-- A statement of a script. -/
inductive StatementText where
  | compositor (quoted : Bool) (name : String)
  /-- A unit that opens a block. -/
  | opener (u : UnitText)
  | unit (u : UnitText)
  /-- A block of options. -/
  | block (k : Keyword) (units : List UnitText)
  | closer

namespace StatementText

/-- How a statement is written. -/
def pieces : StatementText → List Piece
  | compositor quoted name =>
    .word Keyword.compositor.text.toList ::
      ((if quoted then [.mark '"', .name name, .mark '"'] else [.name name]) ++ [.mark '\x7b'])
  | opener u => u.pieces ++ [.mark '\x7b']
  | unit u => u.pieces
  | block k units =>
    .word k.text.toList :: .mark '\x7b' :: (units.flatMap UnitText.pieces ++ [.mark '\x7d'])
  | closer => [.mark '\x7d']

/-- The units that a statement is cut into. -/
def shapes : StatementText → List UnitShape
  | compositor _ name => [⟨.compositor, [.label name]⟩]
  | opener u => [u.shape]
  | unit u => [u.shape]
  | block _ units => units.map UnitText.shape
  | closer => [⟨.closeBrace, []⟩]

end StatementText

/-- The last value that is found among some items. -/
def last? {α β : Type} (find : α → Option β) (items : List α) : Option β :=
  items.reverse.findSome? find

/-! ## Passes -/

/-- An option of a pass. -/
inductive PassOption where
  | material (name : String)
  | input (slot : Numeral) (texture : String)
  | firstRenderQueue (queue : Numeral)
  | lastRenderQueue (queue : Numeral)
  | identifier (id : Numeral)

namespace PassOption

def unit : PassOption → UnitText
  | material name => ⟨.material, [.label name]⟩
  | input slot texture => ⟨.input, [.number slot, .label texture]⟩
  | firstRenderQueue queue => ⟨.firstRenderQueue, [.number queue]⟩
  | lastRenderQueue queue => ⟨.lastRenderQueue, [.number queue]⟩
  | identifier id => ⟨.identifier, [.number id]⟩

def attr : PassOption → PassAttribute
  | material name => .material name
  | input slot texture => .input slot.integer32 texture
  | firstRenderQueue queue => .firstRenderQueue queue.integer8
  | lastRenderQueue queue => .lastRenderQueue queue.integer8
  | identifier id => .identifier id.integer32

end PassOption

/-- An option of a clear block. -/
inductive ClearOption where
  | buffers (flags : List BufferFlag)
  | colourValue (red green blue alpha : Numeral)
  | depthValue (depth : Numeral)
  | stencilValue (value : Numeral)

namespace ClearOption

def unit : ClearOption → UnitText
  | buffers flags => ⟨.buffers, flags.map fun flag => .keyword flag.keyword⟩
  | colourValue red green blue alpha =>
    ⟨.colourValue, [.number red, .number green, .number blue, .number alpha]⟩
  | depthValue depth => ⟨.depthValue, [.number depth]⟩
  | stencilValue value => ⟨.stencilValue, [.number value]⟩

def attr : ClearOption → PassAttribute
  | buffers flags => .clearBuffers (BufferFlag.listed flags)
  | colourValue red green blue alpha =>
    .clearColour ⟨red.single, green.single, blue.single, alpha.single⟩
  | depthValue depth => .clearDepth depth.single
  | stencilValue value => .clearStencil value.integer32

end ClearOption

/-- An option of a stencil block. -/
inductive StencilOption where
  | check (on : Bool)
  | compFunc (func : CompareFunction)
  | refValue (value : Numeral)
  | mask (value : Numeral)
  | failOp (op : StencilOperation)
  | depthFailOp (op : StencilOperation)
  | passOp (op : StencilOperation)
  | twoSided (on : Bool)

namespace StencilOption

def unit : StencilOption → UnitText
  | check on => ⟨.check, [.keyword (switchKeyword on)]⟩
  | compFunc func => ⟨.compFunc, [.keyword func.keyword]⟩
  | refValue value => ⟨.refValue, [.number value]⟩
  | mask value => ⟨.mask, [.number value]⟩
  | failOp op => ⟨.failOp, [.keyword op.keyword]⟩
  | depthFailOp op => ⟨.depthFailOp, [.keyword op.keyword]⟩
  | passOp op => ⟨.passOp, [.keyword op.keyword]⟩
  | twoSided on => ⟨.twoSided, [.keyword (switchKeyword on)]⟩

def attr : StencilOption → PassAttribute
  | check on => .stencilCheck on
  | compFunc func => .stencilFunc func
  | refValue value => .stencilRefValue value.integer32
  | mask value => .stencilMask value.integer32
  | failOp op => .stencilFailOp op
  | depthFailOp op => .stencilDepthFailOp op
  | passOp op => .stencilPassOp op
  | twoSided on => .stencilTwoSided on

end StencilOption

/-- What stands in a pass. -/
inductive PassItem where
  | option (o : PassOption)
  | clear (options : List ClearOption)
  | stencil (options : List StencilOption)

namespace PassItem

def statement : PassItem → StatementText
  | option o => .unit o.unit
  | clear options => .block .clear (options.map ClearOption.unit)
  | stencil options => .block .stencil (options.map StencilOption.unit)

def attrs : PassItem → List PassAttribute
  | option o => [o.attr]
  | clear options => options.map ClearOption.attr
  | stencil options => options.map StencilOption.attr

end PassItem

/-- A pass. -/
structure PassText where
  type : PassType
  items : List PassItem

namespace PassText

def statements (p : PassText) : List StatementText :=
  .opener ⟨.pass, [.keyword p.type.keyword]⟩ :: (p.items.map PassItem.statement ++ [.closer])

/-- The attributes that are described, in order. -/
def attrs (p : PassText) : List PassAttribute := p.items.flatMap PassItem.attrs

/-- The value that is described last for a field, or else the default. -/
def value {α : Type} (p : PassText) (default : α) (find : PassAttribute → Option α) : α :=
  (last? find p.attrs).getD default

/-- The slots for which a texture is described, each of them once, in ascending order. -/
def slots (p : PassText) : List UInt32 :=
  (p.attrs.filterMap PassAttribute.slot?).dedup.insertionSort (· ≤ ·)

/-- The described pass: each field has the value that is described for it last, or that of a pass
    without options. -/
def pass (p : PassText) (defaults : Defaults) : Pass where
  passType := p.type
  identifier := p.value 0 fun | .identifier id => some id | _ => none
  material := last? (fun | .material name => some name | _ => none) p.attrs
  inputs := p.slots.filterMap fun slot => (last? (·.bound? slot) p.attrs).map (slot, ·)
  firstRenderQueue := p.value defaults.firstRenderQueue fun
    | .firstRenderQueue queue => some queue
    | _ => none
  lastRenderQueue := p.value defaults.lastRenderQueue fun
    | .lastRenderQueue queue => some queue
    | _ => none
  clear :=
    { buffers := p.value ⟨true, true, false⟩ fun | .clearBuffers buffers => some buffers | _ => none
      colour := p.value .zero fun | .clearColour colour => some colour | _ => none
      depth := p.value (.ofNat Number.single 1) fun | .clearDepth depth => some depth | _ => none
      stencil := p.value 0 fun | .clearStencil value => some value | _ => none }
  stencil :=
    { check := p.value false fun | .stencilCheck on => some on | _ => none
      func := p.value .alwaysPass fun | .stencilFunc func => some func | _ => none
      refValue := p.value 0 fun | .stencilRefValue value => some value | _ => none
      mask := p.value 4294967295 fun | .stencilMask mask => some mask | _ => none
      failOp := p.value .keep fun | .stencilFailOp op => some op | _ => none
      depthFailOp := p.value .keep fun | .stencilDepthFailOp op => some op | _ => none
      passOp := p.value .keep fun | .stencilPassOp op => some op | _ => none
      twoSided := p.value false fun | .stencilTwoSided on => some on | _ => none }

end PassText

/-! ## Targets -/

/-- What stands in every target. -/
inductive TargetItem where
  | input (mode : InputMode)
  | pass (p : PassText)

/-- An option that only a named target takes. -/
inductive TargetOption where
  | onlyInitial (on : Bool)
  | visibilityMask (mask : Numeral)
  | lodBias (bias : Numeral)
  | materialScheme (scheme : String)

/-- What stands in a named target. -/
inductive NamedTargetItem where
  | item (i : TargetItem)
  | option (o : TargetOption)

namespace TargetItem

def statements : TargetItem → List StatementText
  | input mode => [.unit ⟨.input, [.keyword mode.keyword]⟩]
  | pass p => p.statements

end TargetItem

namespace TargetOption

def unit : TargetOption → UnitText
  | onlyInitial on => ⟨.onlyInitial, [.keyword (switchKeyword on)]⟩
  | visibilityMask mask => ⟨.visibilityMask, [.number mask]⟩
  | lodBias bias => ⟨.lodBias, [.number bias]⟩
  | materialScheme scheme => ⟨.materialScheme, [.label scheme]⟩

def attr : TargetOption → TargetAttribute
  | onlyInitial on => .onlyInitial on
  | visibilityMask mask => .visibilityMask mask.integer32
  | lodBias bias => .lodBias bias.single
  | materialScheme scheme => .materialScheme scheme

end TargetOption

namespace NamedTargetItem

def statements : NamedTargetItem → List StatementText
  | item i => i.statements
  | option o => [.unit o.unit]

/-- The attribute that the item describes. -/
def attr? : NamedTargetItem → Option TargetAttribute
  | item (.input mode) => some (.inputMode mode)
  | item (.pass _) => none
  | option o => some o.attr

/-- The pass that the item describes. -/
def pass? : NamedTargetItem → Option PassText
  | item (.pass p) => some p
  | _ => none

/-- The value that is described last for a field, or else the default. -/
def value {α : Type} (items : List NamedTargetItem) (default : α)
    (find : TargetAttribute → Option α) : α :=
  (last? find (items.filterMap attr?)).getD default

/-- The target that the items describe, with the passes in order.  A field for which they have no
    value is that of a target without items. -/
def target (name : Option String) (items : List NamedTargetItem) (defaults : Defaults) :
    Target where
  outputName := name
  inputMode := value items .none fun | .inputMode mode => some mode | _ => none
  onlyInitial := value items false fun | .onlyInitial on => some on | _ => none
  visibilityMask := value items defaults.visibilityMask fun
    | .visibilityMask mask => some mask
    | _ => none
  lodBias := value items defaults.lodBias fun | .lodBias bias => some bias | _ => none
  materialScheme := value items defaults.materialScheme fun
    | .materialScheme scheme => some scheme
    | _ => none
  passes := (items.filterMap pass?).map (·.pass defaults)

end NamedTargetItem

/-! ## Techniques and compositors -/

/-- A texture; a length that is not given is that of the render target. -/
structure TextureText where
  name : String
  width : Option Numeral
  height : Option Numeral
  format : PixelFormat

namespace TextureText

/-- A length: a number, or the keyword that stands for 0. -/
def length (k : Keyword) : Option Numeral → Term
  | some n => .number n
  | none => .keyword k

def unit (t : TextureText) : UnitText :=
  ⟨.texture, [.label t.name, length .targetWidth t.width, length .targetHeight t.height,
    .keyword t.format.keyword]⟩

def texture (t : TextureText) : Texture where
  name := t.name
  width := (t.width.map Numeral.integer32).getD 0
  height := (t.height.map Numeral.integer32).getD 0
  format := t.format

end TextureText

/-- What stands in a technique. -/
inductive TechniqueItem where
  | texture (t : TextureText)
  | target (name : String) (items : List NamedTargetItem)
  /-- A block of the output target, of which there may be several. -/
  | output (items : List TargetItem)

namespace TechniqueItem

def statements : TechniqueItem → List StatementText
  | texture t => [.unit t.unit]
  | target name items =>
    .opener ⟨.target, [.label name]⟩ :: (items.flatMap NamedTargetItem.statements ++ [.closer])
  | output items =>
    .opener ⟨.targetOutput, []⟩ :: (items.flatMap TargetItem.statements ++ [.closer])

/-- The texture that the item describes. -/
def texture? : TechniqueItem → Option TextureText
  | texture t => some t
  | _ => none

/-- The named target that the item describes. -/
def target? (defaults : Defaults) : TechniqueItem → Option Target
  | target name items => some (NamedTargetItem.target (some name) items defaults)
  | _ => none

/-- What the item says of the output target. -/
def outputItems : TechniqueItem → List TargetItem
  | output items => items
  | _ => []

end TechniqueItem

/-- A technique. -/
structure TechniqueText where
  items : List TechniqueItem

namespace TechniqueText

def statements (t : TechniqueText) : List StatementText :=
  .opener ⟨.technique, []⟩ :: (t.items.flatMap TechniqueItem.statements ++ [.closer])

/-- The described technique.  All blocks of the output target describe the same target. -/
def technique (t : TechniqueText) (defaults : Defaults) : Technique where
  textures := (t.items.filterMap TechniqueItem.texture?).map TextureText.texture
  targets := t.items.filterMap (TechniqueItem.target? defaults)
  output :=
    NamedTargetItem.target none ((t.items.flatMap TechniqueItem.outputItems).map .item) defaults

/-- The names of the textures. -/
def textureNames (t : TechniqueText) : List String :=
  (t.items.filterMap TechniqueItem.texture?).map (·.name)

end TechniqueText

/-- A compositor. -/
structure CompositorText where
  name : String
  techniques : List TechniqueText

namespace CompositorText

/-- The statements of a compositor, whose name is written between quotes or not. -/
def statements (quoted : String → Bool) (c : CompositorText) : List StatementText :=
  .compositor (quoted c.name) c.name :: (c.techniques.flatMap TechniqueText.statements ++ [.closer])

/-- The described compositor, in a group. -/
def compositor (c : CompositorText) (group : String) (defaults : Defaults) : Compositor :=
  ⟨c.name, group, c.techniques.map (·.technique defaults)⟩

end CompositorText

/-! ## Scripts -/

/-- The statements of a script. -/
def scriptStatements (quoted : String → Bool) (described : List CompositorText) :
    List StatementText :=
  described.flatMap (CompositorText.statements quoted)

/-- The statements that scripts consist of. -/
inductive StatementText.Described : StatementText → Prop where
  | compositor (quoted : Bool) (name : String) : Described (.compositor quoted name)
  | technique : Described (.opener ⟨.technique, []⟩)
  | texture (t : TextureText) : Described (.unit t.unit)
  | target (name : String) : Described (.opener ⟨.target, [.label name]⟩)
  | targetOutput : Described (.opener ⟨.targetOutput, []⟩)
  | inputMode (mode : InputMode) : Described (.unit ⟨.input, [.keyword mode.keyword]⟩)
  | targetOption (o : TargetOption) : Described (.unit o.unit)
  | pass (type : PassType) : Described (.opener ⟨.pass, [.keyword type.keyword]⟩)
  | passOption (o : PassOption) : Described (.unit o.unit)
  | clear (options : List ClearOption) :
    Described (.block .clear (options.map ClearOption.unit))
  | stencil (options : List StencilOption) :
    Described (.block .stencil (options.map StencilOption.unit))
  | closer : Described .closer

/-- The text is a script of the described compositors: it is written of their statements. -/
def IsScriptOf (caseSensitive : Bool) (quoted : String → Bool) (described : List CompositorText)
    (text : String) : Prop :=
  Writes caseSensitive ((scriptStatements quoted described).flatMap StatementText.pieces)
    text.toList

/-! ## Statements of a script -/

/-- What holds of the opener, of every statement inside and of the brace holds of a block. -/
theorem forall_mem_block {P : StatementText → Prop} {opener : StatementText} {α : Type}
    {items : List α} {statements : α → List StatementText} (hopener : P opener)
    (hitems : ∀ item ∈ items, ∀ s ∈ statements item, P s) (hcloser : P .closer) :
    ∀ s ∈ opener :: (items.flatMap statements ++ [.closer]), P s := by
  intro s hs
  simp only [List.mem_cons, List.mem_append, List.mem_flatMap, List.not_mem_nil, or_false] at hs
  rcases hs with rfl | ⟨item, hitem, hs⟩ | rfl
  · exact hopener
  · exact hitems item hitem s hs
  · exact hcloser

theorem described_pass (p : PassText) : ∀ s ∈ p.statements, s.Described := by
  have hstatements : p.statements = .opener ⟨.pass, [.keyword p.type.keyword]⟩ ::
      (p.items.flatMap (fun item => [item.statement]) ++ [.closer]) := by
    rw [PassText.statements, List.map_eq_flatMap]
  rw [hstatements]
  refine forall_mem_block (.pass p.type) (fun item _ s hs => ?_) .closer
  rw [List.mem_singleton.mp hs]
  cases item with
  | option o => exact .passOption o
  | clear options => exact .clear options
  | stencil options => exact .stencil options

theorem described_targetItem (i : TargetItem) : ∀ s ∈ i.statements, s.Described := by
  cases i with
  | input mode =>
    intro s hs
    rw [List.mem_singleton.mp hs]
    exact .inputMode mode
  | pass p => exact described_pass p

theorem described_namedTargetItem (i : NamedTargetItem) : ∀ s ∈ i.statements, s.Described := by
  cases i with
  | item i => exact described_targetItem i
  | option o =>
    intro s hs
    rw [List.mem_singleton.mp hs]
    exact .targetOption o

theorem described_techniqueItem (i : TechniqueItem) : ∀ s ∈ i.statements, s.Described := by
  cases i with
  | texture t =>
    intro s hs
    rw [List.mem_singleton.mp hs]
    exact .texture t
  | target name items =>
    exact forall_mem_block (.target name) (fun item _ => described_namedTargetItem item) .closer
  | output items =>
    exact forall_mem_block .targetOutput (fun item _ => described_targetItem item) .closer

theorem described_of_mem {quoted : String → Bool} {described : List CompositorText}
    {s : StatementText} (h : s ∈ scriptStatements quoted described) : s.Described := by
  obtain ⟨c, _, hs⟩ := List.mem_flatMap.mp h
  refine forall_mem_block (.compositor (quoted c.name) c.name) (fun t _ => ?_) .closer s hs
  exact forall_mem_block .technique (fun item _ => described_techniqueItem item) .closer

end Script
end Compositing
