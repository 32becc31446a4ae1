import Compositing.Number.Binary

/-! # Values of scene objects

    The enumerations, flags and colours that describe compositors.  Every
    enumeration has one name for each value, used wherever it is shown. -/

namespace Compositing

/-! ## Enumerations -/

/-- Pixel formats of a texture. -/
inductive PixelFormat where
  | a8r8g8b8 | r8g8b8a8 | r8g8b8
  | float16R | float16Rgb | float16Rgba
  | float32R | float32Rgb | float32Rgba
  deriving DecidableEq

namespace PixelFormat

def all : List PixelFormat :=
  [a8r8g8b8, r8g8b8a8, r8g8b8, float16R, float16Rgb, float16Rgba, float32R, float32Rgb,
   float32Rgba]

def name : PixelFormat → String
  | a8r8g8b8 => "A8R8G8B8"
  | r8g8b8a8 => "R8G8B8A8"
  | r8g8b8 => "R8G8B8"
  | float16R => "Float16R"
  | float16Rgb => "Float16Rgb"
  | float16Rgba => "Float16Rgba"
  | float32R => "Float32R"
  | float32Rgb => "Float32Rgb"
  | float32Rgba => "Float32Rgba"

def ofName? (s : String) : Option PixelFormat := all.find? (·.name == s)

end PixelFormat

/-- What a target starts from. -/
inductive InputMode where
  | none | previous
  deriving DecidableEq

namespace InputMode

def all : List InputMode := [none, previous]

def name : InputMode → String
  | none => "None"
  | previous => "Previous"

def ofName? (s : String) : Option InputMode := all.find? (·.name == s)

end InputMode

/-- What a pass does. -/
inductive PassType where
  | clear | stencil | renderScene | renderQuad
  deriving DecidableEq

namespace PassType

def all : List PassType := [clear, stencil, renderScene, renderQuad]

def name : PassType → String
  | clear => "Clear"
  | stencil => "Stencil"
  | renderScene => "RenderScene"
  | renderQuad => "RenderQuad"

def ofName? (s : String) : Option PassType := all.find? (·.name == s)

end PassType

/-- Comparisons of the stencil test. -/
inductive CompareFunction where
  | alwaysFail | alwaysPass | less | lessEqual | equal | notEqual | greaterEqual | greater
  deriving DecidableEq

namespace CompareFunction

def all : List CompareFunction :=
  [alwaysFail, alwaysPass, less, lessEqual, equal, notEqual, greaterEqual, greater]

def name : CompareFunction → String
  | alwaysFail => "AlwaysFail"
  | alwaysPass => "AlwaysPass"
  | less => "Less"
  | lessEqual => "LessEqual"
  | equal => "Equal"
  | notEqual => "NotEqual"
  | greaterEqual => "GreaterEqual"
  | greater => "Greater"

def ofName? (s : String) : Option CompareFunction := all.find? (·.name == s)

end CompareFunction

/-- What happens to the stencil buffer. -/
inductive StencilOperation where
  | keep | zero | replace | increment | decrement | incrementWrap | decrementWrap | invert
  deriving DecidableEq

namespace StencilOperation

def all : List StencilOperation :=
  [keep, zero, replace, increment, decrement, incrementWrap, decrementWrap, invert]

def name : StencilOperation → String
  | keep => "Keep"
  | zero => "Zero"
  | replace => "Replace"
  | increment => "Increment"
  | decrement => "Decrement"
  | incrementWrap => "IncrementWrap"
  | decrementWrap => "DecrementWrap"
  | invert => "Invert"

def ofName? (s : String) : Option StencilOperation := all.find? (·.name == s)

end StencilOperation

/-! ## Frame buffers -/

/-- A set of frame buffers. -/
structure Buffers where
  colour : Bool
  depth : Bool
  stencil : Bool
  deriving DecidableEq

namespace Buffers

/-- No buffer. -/
def empty : Buffers := ⟨false, false, false⟩

/-- The buffers in either set. -/
def union (a b : Buffers) : Buffers :=
  ⟨a.colour || b.colour, a.depth || b.depth, a.stencil || b.stencil⟩

/-- The names of the buffers in the set, in order. -/
def names (b : Buffers) : List String :=
  (if b.colour then ["COLOUR"] else []) ++ (if b.depth then ["DEPTH"] else [])
    ++ (if b.stencil then ["STENCIL"] else [])

/-- The names with a bar between two; empty for no buffer. -/
def text (b : Buffers) : String := " | ".intercalate b.names

/-- The set as a bit mask: colour 1, depth 2, stencil 4. -/
def toBits (b : Buffers) : Nat := b.colour.toNat + 2 * b.depth.toNat + 4 * b.stencil.toNat

/-- The set with this bit mask. -/
def ofBits (bits : Nat) : Buffers := ⟨bits.testBit 0, bits.testBit 1, bits.testBit 2⟩

end Buffers

/-! ## Colours -/

/-- A colour; its channels are single-precision numbers. -/
structure Colour where
  r : Number
  g : Number
  b : Number
  a : Number
  deriving DecidableEq

/-- Black without opacity. -/
def Colour.zero : Colour :=
  ⟨.zero Number.single, .zero Number.single, .zero Number.single, .zero Number.single⟩

end Compositing
