import Compositing.Proofs.Scene.Stacking
import Compositing.Proofs.Script.Dispatch
import Compositing.Proofs.Script.Reading

/-! # Other handles

    A context only passes handles on.  With other handles in the context a
    unit is read to the same command about the other objects, and refused for
    the same reason: no refusal tells of a handle that the context holds. -/

namespace Compositing.Script

variable (n : Nat)

/-! ## Contexts -/

namespace Context

/-- The context with handles after `n` more. -/
def raise (c : Context) : Context :=
  { c with
    compositor := c.compositor.map fun (handle, name) => (handle.raise n, name)
    technique := c.technique.map (Handle.raise n)
    target := c.target.map (Handle.raise n)
    pass := c.pass.map (Handle.raise n) }

variable (c : Context)

theorem handle?_raise (within : Section) :
    (c.raise n).handle? within = (c.handle? within).map (Handle.raise n) := by
  cases within with
  | compositor =>
    cases h : c.compositor <;> simp [handle?, raise, h]
  | _ => rfl

@[simp] theorem compositorName_raise : (c.raise n).compositorName = c.compositorName := by
  cases h : c.compositor <;> simp [compositorName, raise, h]

theorem close_raise : (c.raise n).close = c.close.raise n := by
  have hin : (c.raise n).innermost = c.innermost := rfl
  unfold close
  rw [hin]
  cases c.innermost <;> rfl

end Context

/-! ## Commands -/

/-- The command about objects with handles after `n` more. -/
def Command.raise : Command → Command
  | .close => .close
  | .openCompositor name => .openCompositor name
  | .openTechnique parent => .openTechnique (parent.raise n)
  | .openTarget parent output => .openTarget (parent.raise n) output
  | .openOutputTarget parent => .openOutputTarget (parent.raise n)
  | .openPass parent type => .openPass (parent.raise n) type
  | .set object attr => .set (object.raise n) attr

section
variable (c : Context) (token : Token)

theorem requireIn_raise (within : Section) :
    requireIn (c.raise n) token within = requireIn c token within := rfl

theorem handleOf_raise (within : Section) :
    handleOf (c.raise n) token within = Handle.raise n <$> handleOf c token within := by
  unfold handleOf Context.handle
  rw [Context.handle?_raise]
  cases c.handle? within <;> rfl

theorem objectOf_raise (within : Section) :
    objectOf (c.raise n) token within = Handle.raise n <$> objectOf c token within := by
  simp only [objectOf, requireIn_raise, handleOf_raise, map_bind]

theorem setTarget_raise (attr : TargetAttribute) :
    setTarget (c.raise n) token attr = Command.raise n <$> setTarget c token attr := by
  have hset : (do return .set (← handleOf (c.raise n) token .target) (.target attr)) =
      Command.raise n <$> (do return .set (← handleOf c token .target) (.target attr)) := by
    simp only [handleOf_raise, map_bind, map_pure, bind_map_left, Command.raise]
  have houtput : (c.raise n).outputTarget = c.outputTarget := rfl
  simp only [setTarget, requireIn_raise, houtput, map_bind]
  refine bind_congr fun _ => ?_
  cases c.outputTarget with
  | false => exact hset
  | true => cases attr <;> first | exact hset | rfl

theorem setPass_raise (attr : PassAttribute) :
    setPass (c.raise n) token attr = Command.raise n <$> setPass c token attr := by
  simp only [setPass, objectOf_raise, map_bind, map_pure, bind_map_left, Command.raise]

theorem readTexture_raise :
    readTexture (c.raise n) token = Command.raise n <$> readTexture c token := by
  simp only [readTexture, objectOf_raise, map_bind, map_pure, bind_map_left, Command.raise]

theorem readInput_raise : readInput (c.raise n) token = Command.raise n <$> readInput c token := by
  have hin : (c.raise n).innermost = c.innermost := rfl
  unfold readInput
  rw [hin]
  cases c.innermost with
  | target => simp only [setTarget_raise, map_bind]
  | pass => simp only [setPass_raise, map_bind]
  | _ => rfl

/-- A unit is read to the command about the other objects. -/
theorem read_raise (action : Action) :
    Command.read (c.raise n) token action = Command.raise n <$> Command.read c token action := by
  cases action with
  | closeBrace =>
    have hin : (c.raise n).innermost = c.innermost := rfl
    simp only [Command.read, hin]
    split <;> rfl
  | compositor => simp only [Command.read, requireIn_raise, map_bind, map_pure, Command.raise]
  | input => exact readInput_raise n c token
  | texture => exact readTexture_raise n c token
  | technique | target | targetOutput | pass =>
    simp only [Command.read, objectOf_raise, map_bind, map_pure, bind_map_left, Command.raise]
  | onlyInitial | visibilityMask | lodBias | materialScheme =>
    simp only [Command.read, setTarget_raise, map_bind]
  | _ => simp only [Command.read, setPass_raise, map_bind]

/-- The same for a reading of some arguments. -/
theorem run_read_raise (action : Action) (arguments : Arguments) :
    (Command.read (c.raise n) token action).run arguments =
      (((Command.read c token action).run arguments).1.map (Command.raise n),
        ((Command.read c token action).run arguments).2) := by
  rw [read_raise, map_eq_pure_bind, Reading.run_bind]
  rcases (Command.read c token action).run arguments with ⟨_ | command, rest⟩ <;> rfl

end
end Compositing.Script
