import Compositing.Scene.Value

/-! # Scene objects

    A compositor has techniques; a technique has textures, named targets and
    one output target; a target has passes.  A new object takes some of its
    values from `Defaults`. -/

namespace Compositing

/-- A texture of a technique.  A width or height of 0 is that of the render target. -/
structure Texture where
  name : String
  width : UInt32
  height : UInt32
  format : PixelFormat
  deriving DecidableEq

/-- What a pass clears, and to what. -/
structure ClearState where
  buffers : Buffers
  colour : Colour
  depth : Number
  stencil : UInt32
  deriving DecidableEq

/-- The stencil test of a pass. -/
structure StencilState where
  check : Bool
  func : CompareFunction
  refValue : UInt32
  mask : UInt32
  failOp : StencilOperation
  depthFailOp : StencilOperation
  passOp : StencilOperation
  twoSided : Bool
  deriving DecidableEq

/-- A pass.  Its texture inputs are in ascending order of their slots. -/
structure Pass where
  passType : PassType
  identifier : UInt32
  material : Option String
  inputs : List (UInt32 × String)
  firstRenderQueue : UInt8
  lastRenderQueue : UInt8
  clear : ClearState
  stencil : StencilState
  deriving DecidableEq

/-- A target; only the output target of a technique may have no name. -/
structure Target where
  outputName : Option String
  inputMode : InputMode
  onlyInitial : Bool
  visibilityMask : UInt32
  lodBias : Number
  materialScheme : String
  passes : List Pass
  deriving DecidableEq

/-- A technique. -/
structure Technique where
  textures : List Texture
  targets : List Target
  output : Target
  deriving DecidableEq

/-- A compositor. -/
structure Compositor where
  name : String
  group : String
  techniques : List Technique
  deriving DecidableEq

/-! ## New objects -/

/-- Values that new targets and passes begin with. -/
structure Defaults where
  materialScheme : String
  firstRenderQueue : UInt8
  lastRenderQueue : UInt8
  lodBias : Number
  visibilityMask : UInt32
  deriving DecidableEq

/-- The built-in defaults. -/
def Defaults.standard : Defaults where
  materialScheme := "Default"
  firstRenderQueue := 5
  lastRenderQueue := 95
  lodBias := .ofNat Number.single 1
  visibilityMask := 4294967295

/-- A pass as it is created. -/
def Pass.new (defaults : Defaults) : Pass where
  passType := .renderQuad
  identifier := 0
  material := none
  inputs := []
  firstRenderQueue := defaults.firstRenderQueue
  lastRenderQueue := defaults.lastRenderQueue
  clear :=
    { buffers := ⟨true, true, false⟩
      colour := .zero
      depth := .ofNat Number.single 1
      stencil := 0 }
  stencil :=
    { check := false
      func := .alwaysPass
      refValue := 0
      mask := 4294967295
      failOp := .keep
      depthFailOp := .keep
      passOp := .keep
      twoSided := false }

/-- A target as it is created. -/
def Target.new (defaults : Defaults) : Target where
  outputName := none
  inputMode := .none
  onlyInitial := false
  visibilityMask := defaults.visibilityMask
  lodBias := defaults.lodBias
  materialScheme := defaults.materialScheme
  passes := []

/-- A technique as it is created. -/
def Technique.new (defaults : Defaults) : Technique where
  textures := []
  targets := []
  output := .new defaults

/-! ## Slots -/

/-- Binds a slot, in place of an earlier binding of the same slot. -/
def bindSlot (slot : UInt32) (texture : String) :
    List (UInt32 × String) → List (UInt32 × String)
  | [] => [(slot, texture)]
  | (other, bound) :: rest =>
    if slot < other then (slot, texture) :: (other, bound) :: rest
    else if slot = other then (slot, texture) :: rest
    else (other, bound) :: bindSlot slot texture rest

end Compositing
