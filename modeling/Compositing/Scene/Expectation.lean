import Compositing.Diagnostic
import Compositing.Number.Decimal
import Compositing.Scene.Registry
import Compositing.Text.Quoted

/-! # Expectations

    What a test says about the outcome of a compile: how many there are of
    something, or what value an object has.  An expectation first follows its
    path to an object, where every missing step is a failure of its own, and
    then compares. -/

namespace Compositing

/-! ## Shown values -/

namespace Shown

/-- Numbers in single precision show in any case that they are not integers, and have an
    exponent below 0.0001 and from 10^16. -/
def numberLayout : Number.Layout where
  format := Number.single
  tie := .up
  positional first := -4 ≤ first && first ≤ 15
  wholeEnd := ".0"
  exponentPlus := ""
  infinity negative := if negative then "-inf" else "inf"
  nan := "NaN"

def number (x : Number) : String := numberLayout.write x

def natural (n : Nat) : String := toString n

def bool (on : Bool) : String := if on then "true" else "false"

def optional (s : Option String) : String :=
  match s with
  | some s => "Some(" ++ Text.quoted s ++ ")"
  | none => "None"

def tuple (parts : List String) : String := "(" ++ ", ".intercalate parts ++ ")"

def buffers (b : Buffers) : String :=
  "FrameBufferFlags(" ++ (if b.names.isEmpty then "0x0" else b.text) ++ ")"

def colour (c : Colour) : String :=
  "Colour \x7b r: " ++ number c.r ++ ", g: " ++ number c.g ++ ", b: " ++ number c.b ++ ", a: "
    ++ number c.a ++ " \x7d"

end Shown

/-- Are the channels of two colours the same numbers? -/
def Colour.sameValue (a b : Colour) : Bool :=
  a.r.sameValue b.r && a.g.sameValue b.g && a.b.sameValue b.b && a.a.sameValue b.a

/-! ## Expectations -/

/-- What is expected of a target. -/
inductive TargetExpectation where
  | attr (attr : TargetAttribute)
  | passCount (count : Nat)

/-- What is expected of a pass. -/
inductive PassExpectation where
  | attr (attr : PassAttribute)
  | renderQueues (first last : UInt8)
  | stencilOperations (fail depthFail pass : StencilOperation)

/-- What is expected of a technique. -/
inductive TechniqueExpectation where
  | textureCount (count : Nat)
  | texture (texture : Texture)
  | targetCount (count : Nat)
  | target (slot : TargetSlot) (expected : TargetExpectation)
  | pass (slot : TargetSlot) (index : Nat) (expected : PassExpectation)

/-- What is expected of a compositor. -/
inductive CompositorExpectation where
  | group (name : String)
  | techniqueCount (count : Nat)
  | technique (index : Nat) (expected : TechniqueExpectation)

/-- What is expected of the outcome of a compile. -/
inductive Expectation where
  | compositorCount (count : Nat)
  | compositor (name : String) (expected : CompositorExpectation)
  | diagnosticCount (count : Nat)
  | diagnostic (index : Nat) (kind : DiagnosticKind) (line : Nat) (text : String)

/-! ## Failures -/

/-- How an expectation fails. -/
inductive ExpectationFailure where
  /-- Nothing is there to compare. -/
  | absent (message : String)
  /-- Two shown values differ. -/
  | unequal (subject actual expected : String)

/-- The wording of a failure. -/
def ExpectationFailure.message : ExpectationFailure → String
  | absent message => message
  | unequal subject actual expected =>
    "assertion `left == right` failed: " ++ subject ++ "\n  left: " ++ actual
      ++ "\n right: " ++ expected

/-- A comparison; `same` says whether it holds. -/
def compareShown (same : Bool) (subject actual expected : String) :
    Except ExpectationFailure Unit :=
  if same then .ok () else .error (.unequal subject actual expected)

/-- A comparison of values with one shown form. -/
def compareBy {α : Type} [DecidableEq α] (shown : α → String) (subject : String)
    (actual expected : α) : Except ExpectationFailure Unit :=
  compareShown (actual = expected) subject (shown actual) (shown expected)

/-- A comparison of numbers. -/
def compareNumber (subject : String) (actual expected : Number) :
    Except ExpectationFailure Unit :=
  compareShown (actual.sameValue expected) subject (Shown.number actual) (Shown.number expected)

/-- The item of a list, or how the failure of finding none reads. -/
def itemAt {α : Type} (items : List α) (index : Nat) (owner what many : String) :
    Except ExpectationFailure α :=
  match items[index]? with
  | some item => .ok item
  | none =>
    .error (.absent (owner ++ what ++ " index " ++ toString index ++ " out of bounds ("
      ++ toString items.length ++ " " ++ many ++ ")"))

/-! ## Checking -/

/-- Checks an expectation of a target; `place` names the target. -/
def TargetExpectation.check (t : Target) (place : String) :
    TargetExpectation → Except ExpectationFailure Unit
  | .attr (.outputName name) =>
    compareBy Shown.optional (place ++ ": output name") t.outputName (some name)
  | .attr (.inputMode mode) => compareBy InputMode.name (place ++ ": input") t.inputMode mode
  | .attr (.onlyInitial on) => compareBy Shown.bool (place ++ ": only_initial") t.onlyInitial on
  | .attr (.visibilityMask mask) =>
    compareBy Shown.natural (place ++ ": visibility_mask") t.visibilityMask.toNat mask.toNat
  | .attr (.lodBias bias) => compareNumber (place ++ ": lod_bias") t.lodBias bias
  | .attr (.materialScheme scheme) =>
    compareBy Text.quoted (place ++ ": material_scheme") t.materialScheme scheme
  | .passCount count => compareBy Shown.natural (place ++ ": pass count") t.passes.length count

/-- The texture bound to a slot. -/
def Pass.input? (p : Pass) (slot : UInt32) : Option String :=
  (p.inputs.find? (·.1 == slot)).map (·.2)

/-- Checks an expectation of a pass; `place` names the pass. -/
def PassExpectation.check (p : Pass) (place : String) :
    PassExpectation → Except ExpectationFailure Unit
  | .attr wanted =>
    let natural (subject : String) (actual expected : Nat) :=
      compareBy Shown.natural (place ++ subject) actual expected
    let operation (subject : String) (actual expected : StencilOperation) :=
      compareBy StencilOperation.name (place ++ subject) actual expected
    match wanted with
    | .passType type => compareBy PassType.name (place ++ ": type") p.passType type
    | .material name => compareBy Shown.optional (place ++ ": material") p.material (some name)
    | .identifier id => natural ": identifier" p.identifier.toNat id.toNat
    | .input slot texture =>
      compareBy Shown.optional (place ++ ": input " ++ toString slot.toNat) (p.input? slot)
        (some texture)
    | .firstRenderQueue queue => natural ": first render queue" p.firstRenderQueue.toNat queue.toNat
    | .lastRenderQueue queue => natural ": last render queue" p.lastRenderQueue.toNat queue.toNat
    | .clearBuffers buffers =>
      compareBy Shown.buffers (place ++ ": clear buffers") p.clear.buffers buffers
    | .clearColour colour =>
      compareShown (p.clear.colour.sameValue colour) (place ++ ": clear colour")
        (Shown.colour p.clear.colour) (Shown.colour colour)
    | .clearDepth depth => compareNumber (place ++ ": clear depth") p.clear.depth depth
    | .clearStencil value => natural ": clear stencil" p.clear.stencil.toNat value.toNat
    | .stencilCheck on => compareBy Shown.bool (place ++ ": check") p.stencil.check on
    | .stencilFunc func =>
      compareBy CompareFunction.name (place ++ ": comp_func") p.stencil.func func
    | .stencilRefValue value => natural ": ref_value" p.stencil.refValue.toNat value.toNat
    | .stencilMask mask => natural ": mask" p.stencil.mask.toNat mask.toNat
    | .stencilFailOp op => operation ": fail_op" p.stencil.failOp op
    | .stencilDepthFailOp op => operation ": depth_fail_op" p.stencil.depthFailOp op
    | .stencilPassOp op => operation ": pass_op" p.stencil.passOp op
    | .stencilTwoSided on => compareBy Shown.bool (place ++ ": two_sided") p.stencil.twoSided on
  | .renderQueues first last =>
    compareBy (fun (a, b) => Shown.tuple [Shown.natural a, Shown.natural b])
      (place ++ ": render queues") (p.firstRenderQueue.toNat, p.lastRenderQueue.toNat)
      (first.toNat, last.toNat)
  | .stencilOperations fail depthFail pass =>
    compareBy (fun (a, b, c) => Shown.tuple [a.name, b.name, c.name])
      (place ++ ": stencil operations")
      (p.stencil.failOp, p.stencil.depthFailOp, p.stencil.passOp) (fail, depthFail, pass)

/-- A target of a technique and its name in failures. -/
def Technique.targetAt (t : Technique) (place : String) :
    TargetSlot → Except ExpectationFailure (Target × String)
  | .output => .ok (t.output, place ++ ".output")
  | .named index => do
    let target ← itemAt t.targets index (place ++ ": ") "target" "targets"
    return (target, place ++ ".targets[" ++ toString index ++ "]")

/-- Checks an expectation of a technique; `place` names the technique. -/
def TechniqueExpectation.check (t : Technique) (place : String) :
    TechniqueExpectation → Except ExpectationFailure Unit
  | .textureCount count =>
    compareBy Shown.natural (place ++ ": texture count") t.textures.length count
  | .texture expected =>
    match t.textures.find? (·.name == expected.name) with
    | none => .error (.absent (place ++ ": no texture named '" ++ expected.name ++ "'"))
    | some found =>
      let shown (w h : UInt32) (format : PixelFormat) : String :=
        Shown.tuple [Shown.natural w.toNat, Shown.natural h.toNat, format.name]
      compareBy (fun (w, h, format) => shown w h format) (place ++ ": texture " ++ expected.name)
        (found.width, found.height, found.format)
        (expected.width, expected.height, expected.format)
  | .targetCount count =>
    compareBy Shown.natural (place ++ ": target count") t.targets.length count
  | .target slot expected => do
    let (found, place) ← t.targetAt place slot
    expected.check found place
  | .pass slot index expected => do
    let (owner, place) ← t.targetAt place slot
    let found ← itemAt owner.passes index (place ++ ": ") "pass" "passes"
    expected.check found (place ++ ".passes[" ++ toString index ++ "]")

/-- Checks an expectation of a compositor. -/
def CompositorExpectation.check (c : Compositor) :
    CompositorExpectation → Except ExpectationFailure Unit
  | .group name =>
    compareBy Text.quoted ("compositor " ++ c.name ++ ": resource group") c.group name
  | .techniqueCount count =>
    compareBy Shown.natural ("compositor " ++ c.name ++ ": technique count") c.techniques.length
      count
  | .technique index expected => do
    let owner := "compositor " ++ c.name ++ ": "
    let found ← itemAt c.techniques index owner "technique" "techniques"
    expected.check found (c.name ++ ".techniques[" ++ toString index ++ "]")

/-- Checks an expectation. -/
def Expectation.check (r : Registry) (diagnostics : List Diagnostic) :
    Expectation → Except ExpectationFailure Unit
  | .compositorCount count =>
    let names := r.compositors.map (·.name)
    compareBy Shown.natural
      ("Expected " ++ toString count ++ " compositors, found " ++ toString names.length ++ ": "
        ++ Text.quotedList names)
      names.length count
  | .compositor name expected =>
    match r.find? name with
    | none => .error (.absent ("No compositor named '" ++ name ++ "'"))
    | some found => expected.check found
  | .diagnosticCount count =>
    let texts := diagnostics.map (·.text)
    compareBy Shown.natural
      ("Expected " ++ toString count ++ " diagnostics, found " ++ toString texts.length ++ ": "
        ++ Text.quotedLines texts)
      texts.length count
  | .diagnostic index kind line text => do
    let d ← itemAt diagnostics index "" "diagnostic" "diagnostics"
    compareBy
      (fun (kind, line, text) => Shown.tuple [kind.name, Shown.natural line, Text.quoted text])
      ("diagnostics[" ++ toString index ++ "]") (d.kind, d.line, d.text) (kind, line, text)

end Compositing
