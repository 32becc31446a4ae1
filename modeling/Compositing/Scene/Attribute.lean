import Compositing.Scene.Object

/-! # Attributes

    What can be set on a scene object.  Attributes are sorted by the kind of
    object they belong to: a technique takes textures, a target and a pass
    each their own. -/

namespace Compositing

/-- An attribute of a target. -/
inductive TargetAttribute where
  | outputName (name : String)
  | inputMode (mode : InputMode)
  | onlyInitial (on : Bool)
  | visibilityMask (mask : UInt32)
  | lodBias (bias : Number)
  | materialScheme (scheme : String)

/-- An attribute of a pass. -/
inductive PassAttribute where
  | passType (type : PassType)
  | material (name : String)
  | input (slot : UInt32) (texture : String)
  | identifier (id : UInt32)
  | firstRenderQueue (queue : UInt8)
  | lastRenderQueue (queue : UInt8)
  | clearBuffers (buffers : Buffers)
  | clearColour (colour : Colour)
  | clearDepth (depth : Number)
  | clearStencil (value : UInt32)
  | stencilCheck (on : Bool)
  | stencilFunc (func : CompareFunction)
  | stencilRefValue (value : UInt32)
  | stencilMask (mask : UInt32)
  | stencilFailOp (op : StencilOperation)
  | stencilDepthFailOp (op : StencilOperation)
  | stencilPassOp (op : StencilOperation)
  | stencilTwoSided (on : Bool)

/-- An attribute of some object. -/
inductive Attribute where
  | texture (texture : Texture)
  | target (attr : TargetAttribute)
  | pass (attr : PassAttribute)

/-! ## Names -/

/-- The word for an attribute in scripts and messages. -/
def TargetAttribute.name : TargetAttribute → String
  | .outputName _ => "output_name"
  | .inputMode _ => "input"
  | .onlyInitial _ => "only_initial"
  | .visibilityMask _ => "visibility_mask"
  | .lodBias _ => "lod_bias"
  | .materialScheme _ => "material_scheme"

/-- The word for an attribute in scripts and messages. -/
def PassAttribute.name : PassAttribute → String
  | .passType _ => "pass_type"
  | .material _ => "material"
  | .input _ _ => "input"
  | .identifier _ => "identifier"
  | .firstRenderQueue _ => "first_render_queue"
  | .lastRenderQueue _ => "last_render_queue"
  | .clearBuffers _ => "buffers"
  | .clearColour _ => "colour_value"
  | .clearDepth _ => "depth_value"
  | .clearStencil _ => "stencil_value"
  | .stencilCheck _ => "check"
  | .stencilFunc _ => "comp_func"
  | .stencilRefValue _ => "ref_value"
  | .stencilMask _ => "mask"
  | .stencilFailOp _ => "fail_op"
  | .stencilDepthFailOp _ => "depth_fail_op"
  | .stencilPassOp _ => "pass_op"
  | .stencilTwoSided _ => "two_sided"

/-- The word for an attribute in scripts and messages. -/
def Attribute.name : Attribute → String
  | .texture _ => "texture"
  | .target attr => attr.name
  | .pass attr => attr.name

/-! ## Setting -/

/-- The target with an attribute set. -/
def Target.set (t : Target) : TargetAttribute → Target
  | .outputName name => { t with outputName := some name }
  | .inputMode mode => { t with inputMode := mode }
  | .onlyInitial on => { t with onlyInitial := on }
  | .visibilityMask mask => { t with visibilityMask := mask }
  | .lodBias bias => { t with lodBias := bias }
  | .materialScheme scheme => { t with materialScheme := scheme }

/-- The pass with an attribute set. -/
def Pass.set (p : Pass) : PassAttribute → Pass
  | .passType type => { p with passType := type }
  | .material name => { p with material := some name }
  | .input slot texture => { p with inputs := bindSlot slot texture p.inputs }
  | .identifier id => { p with identifier := id }
  | .firstRenderQueue queue => { p with firstRenderQueue := queue }
  | .lastRenderQueue queue => { p with lastRenderQueue := queue }
  | .clearBuffers buffers => { p with clear := { p.clear with buffers } }
  | .clearColour colour => { p with clear := { p.clear with colour } }
  | .clearDepth depth => { p with clear := { p.clear with depth } }
  | .clearStencil value => { p with clear := { p.clear with stencil := value } }
  | .stencilCheck on => { p with stencil := { p.stencil with check := on } }
  | .stencilFunc func => { p with stencil := { p.stencil with func } }
  | .stencilRefValue value => { p with stencil := { p.stencil with refValue := value } }
  | .stencilMask mask => { p with stencil := { p.stencil with mask } }
  | .stencilFailOp op => { p with stencil := { p.stencil with failOp := op } }
  | .stencilDepthFailOp op => { p with stencil := { p.stencil with depthFailOp := op } }
  | .stencilPassOp op => { p with stencil := { p.stencil with passOp := op } }
  | .stencilTwoSided on => { p with stencil := { p.stencil with twoSided := on } }

end Compositing
