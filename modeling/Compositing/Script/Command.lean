import Compositing.Diagnostic
import Compositing.Script.Context

/-! # Commands

    A unit of a script is first read, then carried out.  Reading checks that
    the unit may stand where it does, takes its arguments and finds the object
    it is about; what comes out is a command, which no longer depends on the
    script.  A unit that may not stand where it does, and a unit whose
    arguments are wrong, is refused.

    Openers and textures check their place before they read anything, options
    read their values first.  Arguments read before a refusal stay read. -/

namespace Compositing.Script

/-! ## Refusals -/

/-- Why a unit was refused. -/
inductive Refusal where
  | misplaced (keyword : Option Keyword) (within : Section) (output : Bool)
  | strayBrace
  | argument (error : ArgumentError)
  | builder (error : BuilderError)

namespace Refusal

/-- The wording of a refusal. -/
def message : Refusal → String
  | misplaced keyword within output =>
    "'" ++ (keyword.map (·.text)).getD "?" ++ "' is not allowed " ++ within.location output
  | strayBrace => "Unexpected terminating brace."
  | argument error => error.message
  | builder error => error.message

/-- How a refusal is reported. -/
def kind : Refusal → DiagnosticKind
  | misplaced _ _ _ | strayBrace => .misplaced
  | argument _ | builder _ => .domainValue

/-- The rest of a misplaced statement is misplaced too. -/
def flow (r : Refusal) : Flow :=
  match r.kind with
  | .misplaced => .skipStatement
  | _ => .continue

end Refusal

/-- Why a unit was not read or not carried out. -/
inductive Failure where
  | refused (refusal : Refusal)
  | inconsistent (inconsistency : Inconsistency)

/-! ## Commands -/

/-- What a unit asks for. -/
inductive Command where
  | close
  | openCompositor (name : String)
  | openTechnique (parent : Handle)
  | openTarget (parent : Handle) (output : String)
  | openOutputTarget (parent : Handle)
  | openPass (parent : Handle) (type : PassType)
  | set (object : Handle) (attr : Attribute)

/-! ## Reading values -/

/-- A reader of arguments that may fail; what it took stays taken. -/
abbrev Reading := ExceptT Failure (StateM Arguments)

namespace Reading

/-- Lifts a read of one argument. -/
def ofArguments {α : Type} (read : Arguments → Except ArgumentError (α × Arguments)) :
    Reading α := fun arguments =>
  match read arguments with
  | .ok (value, rest) => (.ok value, rest)
  | .error error => (.error (.refused (.argument error)), arguments)

def label : Reading String := ofArguments Arguments.nextLabel

def number : Reading Number := ofArguments Arguments.nextNumber

/-- A number as an integer: the fraction is cut off and what does not fit saturates. -/
def integer32 : Reading UInt32 :=
  return UInt32.ofNat ((← number).truncate (UInt32.size - 1))

/-- A number as a small integer: the fraction is cut off and what does not fit saturates. -/
def integer8 : Reading UInt8 :=
  return UInt8.ofNat ((← number).truncate (UInt8.size - 1))

/-- A number in single precision. -/
def single : Reading Number := return (← number).convert Number.single

/-- A length of a texture: a number, or the keyword that stands for 0. -/
def lengthOr (keyword : Keyword) : Reading UInt32 := do
  let taken ← (modifyGet (Arguments.takeIf keyword.id) : StateM Arguments Bool)
  if taken then return 0 else integer32

/-- A keyword; `line` is that of the action. -/
def keyword (line : Nat) : Reading Keyword := do
  let id ← ofArguments Arguments.nextId
  match Keyword.ofId? id with
  | some keyword => return keyword
  | none => throw (.inconsistent ⟨line, .notKeyword id⟩)

/-- A keyword that stands for a value. -/
def valueOf {α : Type} (role : Keyword.Role) (value? : Keyword → Option α) (line : Nat) :
    Reading α := do
  let keyword ← keyword line
  match value? keyword with
  | some value => return value
  | none => throw (.inconsistent ⟨line, .wrongRole keyword role⟩)

def switch (line : Nat) : Reading Bool := valueOf .switch Keyword.switch? line

def stencilOperation (line : Nat) : Reading StencilOperation :=
  valueOf .stencilOperation Keyword.stencilOperation? line

/-- Frame buffers up to the last argument, of which there are `count`. -/
def buffers (line : Nat) : (count : Nat) → Reading Buffers
  | 0 => return Buffers.empty
  | count + 1 => do
    let first ← valueOf .buffer Keyword.buffer? line
    return first.union (← buffers line count)

end Reading

/-! ## Reading units -/

section
variable (context : Context) (token : Token)

/-- The refusal of a unit at its place. -/
def misplaced : Failure :=
  .refused (.misplaced (Keyword.ofId? token.id) context.innermost context.outputTarget)

/-- The unit must stand directly in a section. -/
def requireIn (within : Section) : Reading Unit :=
  if context.innermost = within then pure () else throw (misplaced context token)

/-- The handle of the section the unit stands in. -/
def handleOf (within : Section) : Reading Handle :=
  match context.handle within token.line with
  | .ok handle => pure handle
  | .error inconsistency => throw (.inconsistent inconsistency)

/-- The unit must stand directly in a section, whose object it is about. -/
def objectOf (within : Section) : Reading Handle := do
  requireIn context token within
  handleOf context token within

/-- An attribute of the open target.  An output target takes nothing but an input mode. -/
def setTarget (attr : TargetAttribute) : Reading Command := do
  requireIn context token .target
  match context.outputTarget, attr with
  | true, .inputMode _ | false, _ => return .set (← handleOf context token .target) (.target attr)
  | true, _ => throw (misplaced context token)

/-- An attribute of the open pass. -/
def setPass (attr : PassAttribute) : Reading Command :=
  return .set (← objectOf context token .pass) (.pass attr)

/-- `input` is followed by a mode in a target, and by a slot and a texture in a pass. -/
def readInput : Reading Command := do
  match context.innermost with
  | .target =>
    let mode ← Reading.valueOf .inputMode Keyword.inputMode? token.line
    setTarget context token (.inputMode mode)
  | .pass =>
    let slot ← Reading.integer32
    setPass context token (.input slot (← Reading.label))
  | _ => throw (misplaced context token)

/-- A texture of the open technique. -/
def readTexture : Reading Command := do
  let technique ← objectOf context token .technique
  let name ← Reading.label
  let width ← Reading.lengthOr .targetWidth
  let height ← Reading.lengthOr .targetHeight
  let format ← Reading.valueOf .pixelFormat Keyword.pixelFormat? token.line
  return .set technique (.texture ⟨name, width, height, format⟩)

/-- A colour of four channels. -/
def readColour : Reading Colour := do
  let r ← Reading.single
  let g ← Reading.single
  let b ← Reading.single
  return ⟨r, g, b, ← Reading.single⟩

/-- Reads a unit. -/
def Command.read (action : Action) : Reading Command := do
  let line := token.line
  match action with
  | .closeBrace =>
    if context.innermost = .none then throw (.refused .strayBrace) else return .close
  | .compositor =>
    requireIn context token .none
    return .openCompositor (← Reading.label)
  | .technique => return .openTechnique (← objectOf context token .compositor)
  | .texture => readTexture context token
  | .target =>
    let technique ← objectOf context token .technique
    return .openTarget technique (← Reading.label)
  | .targetOutput => return .openOutputTarget (← objectOf context token .technique)
  | .input => readInput context token
  | .onlyInitial => setTarget context token (.onlyInitial (← Reading.switch line))
  | .visibilityMask => setTarget context token (.visibilityMask (← Reading.integer32))
  | .lodBias => setTarget context token (.lodBias (← Reading.single))
  | .materialScheme => setTarget context token (.materialScheme (← Reading.label))
  | .pass =>
    let target ← objectOf context token .target
    return .openPass target (← Reading.valueOf .passType Keyword.passType? line)
  | .material => setPass context token (.material (← Reading.label))
  | .firstRenderQueue => setPass context token (.firstRenderQueue (← Reading.integer8))
  | .lastRenderQueue => setPass context token (.lastRenderQueue (← Reading.integer8))
  | .identifier => setPass context token (.identifier (← Reading.integer32))
  | .buffers =>
    let count := (← (get : StateM Arguments Arguments)).remaining
    setPass context token (.clearBuffers (← Reading.buffers line count))
  | .colourValue => setPass context token (.clearColour (← readColour))
  | .depthValue => setPass context token (.clearDepth (← Reading.single))
  | .stencilValue => setPass context token (.clearStencil (← Reading.integer32))
  | .check => setPass context token (.stencilCheck (← Reading.switch line))
  | .compFunc =>
    setPass context token
      (.stencilFunc (← Reading.valueOf .compareFunction Keyword.compareFunction? line))
  | .refValue => setPass context token (.stencilRefValue (← Reading.integer32))
  | .mask => setPass context token (.stencilMask (← Reading.integer32))
  | .failOp => setPass context token (.stencilFailOp (← Reading.stencilOperation line))
  | .depthFailOp => setPass context token (.stencilDepthFailOp (← Reading.stencilOperation line))
  | .passOp => setPass context token (.stencilPassOp (← Reading.stencilOperation line))
  | .twoSided => setPass context token (.stencilTwoSided (← Reading.switch line))

end
end Compositing.Script
