import Compositing.Json
import Compositing.Diagnostic
import Compositing.Scene.Registry

/-! # Scenes and diagnostics as data

    The JSON form of compositors, as other tools read it.  Fields are in a
    fixed order and none is left out. -/

namespace Compositing
open Json (Value)

def Texture.export (t : Texture) : Value :=
  .object [("name", .string t.name), ("width", .natural t.width.toNat),
    ("height", .natural t.height.toNat), ("format", .string t.format.name)]

def Colour.export (c : Colour) : Value :=
  .object [("r", .single c.r), ("g", .single c.g), ("b", .single c.b), ("a", .single c.a)]

def Pass.export (p : Pass) : Value :=
  .object [
    ("pass_type", .string p.passType.name),
    ("identifier", .natural p.identifier.toNat),
    ("material", .optional p.material),
    ("inputs",
      .object (p.inputs.map fun (slot, texture) => (toString slot.toNat, .string texture))),
    ("first_render_queue", .natural p.firstRenderQueue.toNat),
    ("last_render_queue", .natural p.lastRenderQueue.toNat),
    ("clear_buffers", .string p.clear.buffers.text),
    ("clear_colour", p.clear.colour.export),
    ("clear_depth", .single p.clear.depth),
    ("clear_stencil", .natural p.clear.stencil.toNat),
    ("stencil_check", .bool p.stencil.check),
    ("stencil_func", .string p.stencil.func.name),
    ("stencil_ref_value", .natural p.stencil.refValue.toNat),
    ("stencil_mask", .natural p.stencil.mask.toNat),
    ("stencil_fail_op", .string p.stencil.failOp.name),
    ("stencil_depth_fail_op", .string p.stencil.depthFailOp.name),
    ("stencil_pass_op", .string p.stencil.passOp.name),
    ("stencil_two_sided", .bool p.stencil.twoSided)]

def Target.export (t : Target) : Value :=
  .object [
    ("output_name", .optional t.outputName),
    ("input_mode", .string t.inputMode.name),
    ("only_initial", .bool t.onlyInitial),
    ("visibility_mask", .natural t.visibilityMask.toNat),
    ("lod_bias", .single t.lodBias),
    ("material_scheme", .string t.materialScheme),
    ("passes", .array (t.passes.map Pass.export))]

def Technique.export (t : Technique) : Value :=
  .object [("textures", .array (t.textures.map Texture.export)),
    ("targets", .array (t.targets.map Target.export)), ("output", t.output.export)]

def Compositor.export (c : Compositor) : Value :=
  .object [("name", .string c.name), ("group", .string c.group),
    ("techniques", .array (c.techniques.map Technique.export))]

/-- The compositors of a registry. -/
def Registry.export (r : Registry) : Value :=
  .object [("compositors", .array (r.compositors.map Compositor.export))]

def Diagnostic.export (d : Diagnostic) : Value :=
  .object [("kind", .string d.kind.tag), ("document", .string d.document),
    ("line", .natural d.line), ("compositor", .optional d.compositor),
    ("message", .string d.message)]

end Compositing
