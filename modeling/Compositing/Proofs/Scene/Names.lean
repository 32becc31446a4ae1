import Compositing.Scene.Registry

/-! # The names of compositors

    No operation renames a compositor or takes one away, and only one that is
    granted a new compositor adds a name, which was not taken before.  So the
    names of a registry are a beginning of those after any operations, and if
    they are distinct they stay so. -/

namespace Compositing.Registry

/-- The names of the compositors, in order. -/
def names (r : Registry) : List String := r.compositors.map (·.name)

section
variable (r : Registry)

/-- A compositor is found by its name exactly if the name is taken. -/
theorem find?_isSome_iff (name : String) : (r.find? name).isSome ↔ name ∈ r.names := by
  simp [find?, names]

/-! ## Changes -/

/-- A change that keeps the name of a compositor keeps all names. -/
theorem names_modifyCompositor (c : Nat) {f : Compositor → Compositor}
    (hf : ∀ compositor, (f compositor).name = compositor.name) :
    (r.modifyCompositor c f).names = r.names := by
  refine List.ext_getElem? fun i => ?_
  simp only [names, modifyCompositor, List.getElem?_map, List.getElem?_modify]
  cases r.compositors[i]? with
  | none => rfl
  | some compositor =>
    by_cases hi : c = i
    · simp [hi, hf]
    · simp [hi]

@[simp] theorem names_modifyTechnique (c t : Nat) (f : Technique → Technique) :
    (r.modifyTechnique c t f).names = r.names :=
  r.names_modifyCompositor c fun _ => rfl

@[simp] theorem names_modifyTarget (c t : Nat) (slot : TargetSlot) (f : Target → Target) :
    (r.modifyTarget c t slot f).names = r.names :=
  r.names_modifyTechnique c t _

@[simp] theorem names_modifyPass (c t : Nat) (slot : TargetSlot) (p : Nat) (f : Pass → Pass) :
    (r.modifyPass c t slot p f).names = r.names :=
  r.names_modifyTarget c t slot _

/-! ## Operations -/

theorem names_createCompositor (name group : String) :
    (r.createCompositor name group).2.names =
      if name ∈ r.names then r.names else r.names ++ [name] := by
  unfold createCompositor
  by_cases htaken : name ∈ r.names
  · rw [if_pos ((r.find?_isSome_iff name).mpr htaken), if_pos htaken]
  · rw [if_neg (mt (r.find?_isSome_iff name).mp htaken), if_neg htaken]
    simp [handOut, names]

/-- The name of a compositor that was asked for is taken, granted or not. -/
theorem mem_names_createCompositor (name group : String) :
    name ∈ (r.createCompositor name group).2.names := by
  rw [names_createCompositor]
  by_cases htaken : name ∈ r.names
  · rwa [if_pos htaken]
  · simp [htaken]

@[simp] theorem names_createChild (parent : Handle) (kind : ChildKind) :
    (r.createChild parent kind).2.names = r.names := by
  unfold createChild
  cases hplace : r.place? parent with
  | none => rfl
  | some place =>
    cases hadd : r.addChild place kind with
    | error error => simp [hadd]
    | ok result =>
      simp only [hadd]
      show result.2.names = r.names
      -- what is added is inside a compositor
      unfold addChild at hadd
      split at hadd <;> cases hadd
      · exact r.names_modifyCompositor _ fun _ => rfl
      · exact r.names_modifyTechnique _ _ _
      · rfl
      · exact r.names_modifyTarget _ _ _ _

@[simp] theorem names_setAttribute (object : Handle) (attr : Attribute) :
    (r.setAttribute object attr).2.names = r.names := by
  unfold setAttribute
  split
  · rfl
  · split
    · rfl
    · exact r.names_modifyTechnique _ _ _
  · exact r.names_modifyTarget _ _ _ _
  · exact r.names_modifyPass _ _ _ _ _
  · rfl

end
end Compositing.Registry
