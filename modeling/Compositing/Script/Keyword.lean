import Compositing.Grammar.Element
import Compositing.Scene.Value

/-! # Keywords and actions of compositor scripts

    Every keyword has an id, the text it is spelled with and a name under
    which it is listed.  Some keywords begin an action; the others are
    arguments, and stand for a value of one of the scene enumerations. -/

namespace Compositing

/-! ## Keywords -/

/-- The keywords of compositor scripts. -/
inductive Keyword where
  | closeBrace | compositor | technique | texture | targetWidth | targetHeight | pfA8R8G8B8
  | pfR8G8B8A8 | pfR8G8B8 | pfFloat16R | pfFloat16Rgb | pfFloat16Rgba | pfFloat32R | pfFloat32Rgb
  | pfFloat32Rgba | target | input | none | previous | targetOutput | onlyInitial | visibilityMask
  | lodBias | materialScheme | pass | renderQuad | clear | stencil | renderScene | material
  | firstRenderQueue | lastRenderQueue | identifier | buffers | colour | depth | colourValue
  | depthValue | stencilValue | check | compFunc | refValue | mask | failOp | depthFailOp | passOp
  | twoSided | alwaysFail | alwaysPass | less | lessEqual | equal | notEqual | greaterEqual
  | greater | keep | zero | replace | increment | decrement | incrementWrap | decrementWrap
  | invert | on | off
  deriving DecidableEq

namespace Keyword

/-- Every keyword, in the order of the ids. -/
def all : List Keyword :=
  [.closeBrace, .compositor, .technique, .texture, .targetWidth, .targetHeight, .pfA8R8G8B8,
   .pfR8G8B8A8, .pfR8G8B8, .pfFloat16R, .pfFloat16Rgb, .pfFloat16Rgba, .pfFloat32R,
   .pfFloat32Rgb, .pfFloat32Rgba, .target, .input, .none, .previous, .targetOutput, .onlyInitial,
   .visibilityMask, .lodBias, .materialScheme, .pass, .renderQuad, .clear, .stencil,
   .renderScene, .material, .firstRenderQueue, .lastRenderQueue, .identifier, .buffers, .colour,
   .depth, .colourValue, .depthValue, .stencilValue, .check, .compFunc, .refValue, .mask,
   .failOp, .depthFailOp, .passOp, .twoSided, .alwaysFail, .alwaysPass, .less, .lessEqual,
   .equal, .notEqual, .greaterEqual, .greater, .keep, .zero, .replace, .increment, .decrement,
   .incrementWrap, .decrementWrap, .invert, .on, .off]

/-- The token id of a keyword; the first is 1. -/
def id (k : Keyword) : Nat := k.ctorIdx + 1

/-- The keyword with a token id. -/
def ofId? (id : Nat) : Option Keyword := all.find? (·.id == id)

/-- How a keyword is spelled. -/
def text : Keyword → String
  | .closeBrace => "\x7d"
  | .compositor => "compositor"
  | .technique => "technique"
  | .texture => "texture"
  | .targetWidth => "target_width"
  | .targetHeight => "target_height"
  | .pfA8R8G8B8 => "PF_A8R8G8B8"
  | .pfR8G8B8A8 => "PF_R8G8B8A8"
  | .pfR8G8B8 => "PF_R8G8B8"
  | .pfFloat16R => "PF_FLOAT16_R"
  | .pfFloat16Rgb => "PF_FLOAT16_RGB"
  | .pfFloat16Rgba => "PF_FLOAT16_RGBA"
  | .pfFloat32R => "PF_FLOAT32_R"
  | .pfFloat32Rgb => "PF_FLOAT32_RGB"
  | .pfFloat32Rgba => "PF_FLOAT32_RGBA"
  | .target => "target"
  | .input => "input"
  | .none => "none"
  | .previous => "previous"
  | .targetOutput => "target_output"
  | .onlyInitial => "only_initial"
  | .visibilityMask => "visibility_mask"
  | .lodBias => "lod_bias"
  | .materialScheme => "material_scheme"
  | .pass => "pass"
  | .renderQuad => "render_quad"
  | .clear => "clear"
  | .stencil => "stencil"
  | .renderScene => "render_scene"
  | .material => "material"
  | .firstRenderQueue => "first_render_queue"
  | .lastRenderQueue => "last_render_queue"
  | .identifier => "identifier"
  | .buffers => "buffers"
  | .colour => "colour"
  | .depth => "depth"
  | .colourValue => "colour_value"
  | .depthValue => "depth_value"
  | .stencilValue => "stencil_value"
  | .check => "check"
  | .compFunc => "comp_func"
  | .refValue => "ref_value"
  | .mask => "mask"
  | .failOp => "fail_op"
  | .depthFailOp => "depth_fail_op"
  | .passOp => "pass_op"
  | .twoSided => "two_sided"
  | .alwaysFail => "always_fail"
  | .alwaysPass => "always_pass"
  | .less => "less"
  | .lessEqual => "less_equal"
  | .equal => "equal"
  | .notEqual => "not_equal"
  | .greaterEqual => "greater_equal"
  | .greater => "greater"
  | .keep => "keep"
  | .zero => "zero"
  | .replace => "replace"
  | .increment => "increment"
  | .decrement => "decrement"
  | .incrementWrap => "increment_wrap"
  | .decrementWrap => "decrement_wrap"
  | .invert => "invert"
  | .on => "on"
  | .off => "off"

/-- The name a keyword is listed under. -/
def name : Keyword → String
  | .closeBrace => "CloseBrace"
  | .compositor => "Compositor"
  | .technique => "Technique"
  | .texture => "Texture"
  | .targetWidth => "TargetWidth"
  | .targetHeight => "TargetHeight"
  | .pfA8R8G8B8 => "PfA8R8G8B8"
  | .pfR8G8B8A8 => "PfR8G8B8A8"
  | .pfR8G8B8 => "PfR8G8B8"
  | .pfFloat16R => "PfFloat16R"
  | .pfFloat16Rgb => "PfFloat16Rgb"
  | .pfFloat16Rgba => "PfFloat16Rgba"
  | .pfFloat32R => "PfFloat32R"
  | .pfFloat32Rgb => "PfFloat32Rgb"
  | .pfFloat32Rgba => "PfFloat32Rgba"
  | .target => "Target"
  | .input => "Input"
  | .none => "None"
  | .previous => "Previous"
  | .targetOutput => "TargetOutput"
  | .onlyInitial => "OnlyInitial"
  | .visibilityMask => "VisibilityMask"
  | .lodBias => "LodBias"
  | .materialScheme => "MaterialScheme"
  | .pass => "Pass"
  | .renderQuad => "RenderQuad"
  | .clear => "Clear"
  | .stencil => "Stencil"
  | .renderScene => "RenderScene"
  | .material => "Material"
  | .firstRenderQueue => "FirstRenderQueue"
  | .lastRenderQueue => "LastRenderQueue"
  | .identifier => "Identifier"
  | .buffers => "Buffers"
  | .colour => "Colour"
  | .depth => "Depth"
  | .colourValue => "ColourValue"
  | .depthValue => "DepthValue"
  | .stencilValue => "StencilValue"
  | .check => "Check"
  | .compFunc => "CompFunc"
  | .refValue => "RefValue"
  | .mask => "Mask"
  | .failOp => "FailOp"
  | .depthFailOp => "DepthFailOp"
  | .passOp => "PassOp"
  | .twoSided => "TwoSided"
  | .alwaysFail => "AlwaysFail"
  | .alwaysPass => "AlwaysPass"
  | .less => "Less"
  | .lessEqual => "LessEqual"
  | .equal => "Equal"
  | .notEqual => "NotEqual"
  | .greaterEqual => "GreaterEqual"
  | .greater => "Greater"
  | .keep => "Keep"
  | .zero => "Zero"
  | .replace => "Replace"
  | .increment => "Increment"
  | .decrement => "Decrement"
  | .incrementWrap => "IncrementWrap"
  | .decrementWrap => "DecrementWrap"
  | .invert => "Invert"
  | .on => "On"
  | .off => "Off"

end Keyword

/-! ## Actions -/

/-- What a statement, or an option inside one, asks for. -/
inductive Action where
  | closeBrace | compositor | technique | texture | target | input | targetOutput | onlyInitial
  | visibilityMask | lodBias | materialScheme | pass | material | firstRenderQueue
  | lastRenderQueue | identifier | buffers | colourValue | depthValue | stencilValue | check
  | compFunc | refValue | mask | failOp | depthFailOp | passOp | twoSided
  deriving DecidableEq

namespace Action

/-- Every action. -/
def all : List Action :=
  [.closeBrace, .compositor, .technique, .texture, .target, .input, .targetOutput, .onlyInitial,
   .visibilityMask, .lodBias, .materialScheme, .pass, .material, .firstRenderQueue,
   .lastRenderQueue, .identifier, .buffers, .colourValue, .depthValue, .stencilValue, .check,
   .compFunc, .refValue, .mask, .failOp, .depthFailOp, .passOp, .twoSided]

/-- The keyword that begins an action. -/
def keyword : Action → Keyword
  | .closeBrace => .closeBrace
  | .compositor => .compositor
  | .technique => .technique
  | .texture => .texture
  | .target => .target
  | .input => .input
  | .targetOutput => .targetOutput
  | .onlyInitial => .onlyInitial
  | .visibilityMask => .visibilityMask
  | .lodBias => .lodBias
  | .materialScheme => .materialScheme
  | .pass => .pass
  | .material => .material
  | .firstRenderQueue => .firstRenderQueue
  | .lastRenderQueue => .lastRenderQueue
  | .identifier => .identifier
  | .buffers => .buffers
  | .colourValue => .colourValue
  | .depthValue => .depthValue
  | .stencilValue => .stencilValue
  | .check => .check
  | .compFunc => .compFunc
  | .refValue => .refValue
  | .mask => .mask
  | .failOp => .failOp
  | .depthFailOp => .depthFailOp
  | .passOp => .passOp
  | .twoSided => .twoSided

/-- The name of an action, that of its keyword. -/
def name (a : Action) : String := a.keyword.name

/-- The action with a name. -/
def ofName? (s : String) : Option Action := all.find? (·.name == s)

/-- Does the statement of the action end in an opening brace? -/
def opensBlock : Action → Bool
  | .compositor | .technique | .target | .targetOutput | .pass => true
  | _ => false

end Action

namespace Keyword

/-- The action a keyword begins, if any. -/
def action? (k : Keyword) : Option Action := Action.all.find? (·.keyword == k)

/-- A keyword as it is registered.  All are single words. -/
def lexeme (k : Keyword) : Lexeme Action := ⟨k.text, k.id, k.action?, false⟩

/-- The keywords of compositor scripts, in which case counts or not. -/
def lexicon (caseSensitive : Bool) : Lexicon Action := ⟨caseSensitive, all.map lexeme⟩

/-- An id leads to the keyword that has it. -/
theorem lexicon_lookupId (caseSensitive : Bool) (k : Keyword) :
    (lexicon caseSensitive).lookupId k.id = some k.lexeme := by
  cases k <;> rfl

/-- A keyword as an element of a rule; it yields the keyword's token. -/
def element (k : Keyword) : Element := .terminal k.text true (some k.id)

/-- Alternatives that are each one keyword. -/
def oneOf (keywords : List Keyword) : List (List Element) := keywords.map ([element ·])

/-! ## Keywords as values -/

/-- What a keyword argument can be asked to be. -/
inductive Role where
  | inputMode
  | passType
  | switch
  | buffer
  | pixelFormat
  | compareFunction
  | stencilOperation

/-- The wording of what was asked for. -/
def Role.text : Role → String
  | .inputMode => "input mode"
  | .passType => "pass type"
  | .switch => "switch value"
  | .buffer => "frame buffer"
  | .pixelFormat => "pixel format"
  | .compareFunction => "compare function"
  | .stencilOperation => "stencil operation"

/-- The input mode a keyword stands for. -/
def inputMode? : Keyword → Option InputMode
  | .none => some .none
  | .previous => some .previous
  | _ => Option.none

/-- The pass type a keyword stands for. -/
def passType? : Keyword → Option PassType
  | .renderQuad => some .renderQuad
  | .clear => some .clear
  | .stencil => some .stencil
  | .renderScene => some .renderScene
  | _ => Option.none

/-- The switch value a keyword stands for. -/
def switch? : Keyword → Option Bool
  | .on => some true
  | .off => some false
  | _ => Option.none

/-- The frame buffer a keyword stands for. -/
def buffer? : Keyword → Option Buffers
  | .colour => some ⟨true, false, false⟩
  | .depth => some ⟨false, true, false⟩
  | .stencil => some ⟨false, false, true⟩
  | _ => Option.none

/-- The pixel format a keyword stands for. -/
def pixelFormat? : Keyword → Option PixelFormat
  | .pfA8R8G8B8 => some .a8r8g8b8
  | .pfR8G8B8A8 => some .r8g8b8a8
  | .pfR8G8B8 => some .r8g8b8
  | .pfFloat16R => some .float16R
  | .pfFloat16Rgb => some .float16Rgb
  | .pfFloat16Rgba => some .float16Rgba
  | .pfFloat32R => some .float32R
  | .pfFloat32Rgb => some .float32Rgb
  | .pfFloat32Rgba => some .float32Rgba
  | _ => Option.none

/-- The comparison a keyword stands for. -/
def compareFunction? : Keyword → Option CompareFunction
  | .alwaysFail => some .alwaysFail
  | .alwaysPass => some .alwaysPass
  | .less => some .less
  | .lessEqual => some .lessEqual
  | .equal => some .equal
  | .notEqual => some .notEqual
  | .greaterEqual => some .greaterEqual
  | .greater => some .greater
  | _ => Option.none

/-- The stencil operation a keyword stands for. -/
def stencilOperation? : Keyword → Option StencilOperation
  | .keep => some .keep
  | .zero => some .zero
  | .replace => some .replace
  | .increment => some .increment
  | .decrement => some .decrement
  | .incrementWrap => some .incrementWrap
  | .decrementWrap => some .decrementWrap
  | .invert => some .invert
  | _ => Option.none

end Keyword
end Compositing
