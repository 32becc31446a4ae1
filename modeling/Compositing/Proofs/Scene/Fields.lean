import Compositing.Scene.Attribute

/-! # The fields of targets and passes

    An attribute of a target or a pass has one field as its subject, and
    setting it changes that field alone.  The fields are all there is to a
    target besides its passes, and all there is to a pass.

    A pass has a field for each slot.  Its inputs are kept in ascending order of
    their slots, so that no slot occurs twice. -/

namespace Compositing

/-! ## Binding a slot -/

theorem lookup_input (slot bound : UInt32) (texture : String) (inputs : List (UInt32 × String)) :
    ((bound, texture) :: inputs).lookup slot =
      if slot = bound then some texture else inputs.lookup slot := by
  rw [List.lookup_cons]
  by_cases heq : slot = bound
  · simp [heq]
  · rw [if_neg heq, beq_eq_false_iff_ne.mpr heq]

/-- A slot that is bound has the new texture, the others are as before. -/
theorem lookup_bindSlot (slot other : UInt32) (texture : String)
    (inputs : List (UInt32 × String)) :
    (bindSlot slot texture inputs).lookup other =
      if other = slot then some texture else inputs.lookup other := by
  induction inputs with
  | nil => exact lookup_input other slot texture []
  | cons input inputs ih =>
    obtain ⟨bound, name⟩ := input
    unfold bindSlot
    by_cases hlt : slot < bound
    · rw [if_pos hlt, lookup_input]
    · rw [if_neg hlt]
      by_cases hsame : slot = bound
      · rw [if_pos hsame, lookup_input, lookup_input, hsame]
        split <;> rfl
      · rw [if_neg hsame, lookup_input, lookup_input, ih]
        by_cases heq : other = bound
        · have hne : other ≠ slot := fun h => hsame (h.symm.trans heq)
          rw [if_pos heq, if_neg hne, if_pos heq]
        · rw [if_neg heq, if_neg heq]

/-- The slots that are bound. -/
theorem mem_slots_bindSlot {slot other : UInt32} {texture : String}
    {inputs : List (UInt32 × String)} (h : other ∈ (bindSlot slot texture inputs).map (·.1)) :
    other = slot ∨ other ∈ inputs.map (·.1) := by
  induction inputs with
  | nil => simpa [bindSlot] using h
  | cons input inputs ih =>
    unfold bindSlot at h
    split at h
    · simpa using h
    · split at h
      · rename_i hsame
        simp only [List.map_cons, List.mem_cons] at h ⊢
        rcases h with h | h
        · exact .inl h
        · exact .inr (.inr h)
      · rw [List.map_cons, List.mem_cons] at h ⊢
        rcases h with h | h
        · exact .inr (.inl h)
        · rcases ih h with h | h
          · exact .inl h
          · exact .inr (.inr h)

/-- The slots stay in ascending order. -/
theorem sorted_bindSlot (slot : UInt32) (texture : String) {inputs : List (UInt32 × String)}
    (h : (inputs.map (·.1)).Pairwise (· < ·)) :
    ((bindSlot slot texture inputs).map (·.1)).Pairwise (· < ·) := by
  induction inputs with
  | nil => simp [bindSlot]
  | cons input inputs ih =>
    obtain ⟨bound, name⟩ := input
    have hcons := h
    rw [List.map_cons, List.pairwise_cons] at h
    unfold bindSlot
    -- the slot comes before the first one, is the first one, or goes further back
    split
    · rename_i hlt
      rw [List.map_cons, List.pairwise_cons]
      refine ⟨?_, hcons⟩
      intro other hother
      rcases List.mem_cons.mp hother with rfl | hother
      · exact hlt
      · exact UInt32.lt_trans hlt (h.1 other hother)
    · split
      · rename_i hsame
        rw [hsame]
        exact hcons
      · rename_i hlt hne
        rw [List.map_cons, List.pairwise_cons]
        refine ⟨?_, ih h.2⟩
        intro other hother
        rcases mem_slots_bindSlot hother with rfl | hother
        · have hle : bound ≤ other := UInt32.not_lt.mp hlt
          exact UInt32.lt_of_le_of_ne hle fun heq => hne heq.symm
        · exact h.1 other hother

/-- No slot in front of all that are bound is bound. -/
theorem lookup_of_lt {slot : UInt32} {inputs : List (UInt32 × String)}
    (h : ∀ bound ∈ inputs.map (·.1), slot < bound) : inputs.lookup slot = none := by
  rw [List.lookup_eq_none_iff]
  intro input hinput
  have hlt : slot < input.1 := h input.1 (List.mem_map_of_mem hinput)
  exact bne_iff_ne.mpr (UInt32.ne_of_lt hlt)

/-- Inputs in ascending order are determined by the textures of the slots. -/
theorem eq_of_lookup {inputs inputs' : List (UInt32 × String)}
    (h : ∀ slot, inputs.lookup slot = inputs'.lookup slot)
    (hsorted : (inputs.map (·.1)).Pairwise (· < ·))
    (hsorted' : (inputs'.map (·.1)).Pairwise (· < ·)) : inputs = inputs' := by
  induction inputs generalizing inputs' with
  | nil =>
    cases inputs' with
    | nil => rfl
    | cons input' inputs' =>
      obtain ⟨slot', texture'⟩ := input'
      simpa [lookup_input] using h slot'
  | cons input inputs ih =>
    obtain ⟨slot, texture⟩ := input
    cases inputs' with
    | nil => simpa [lookup_input] using h slot
    | cons input' inputs' =>
      obtain ⟨slot', texture'⟩ := input'
      rw [List.map_cons, List.pairwise_cons] at hsorted hsorted'
      -- the lower of the two first slots would be bound in one of the lists only
      have hnot : ¬ slot < slot' := by
        intro hlt
        have hnone : ((slot', texture') :: inputs').lookup slot = none :=
          lookup_of_lt (List.forall_mem_cons.mpr
            ⟨hlt, fun bound hbound => UInt32.lt_trans hlt (hsorted'.1 bound hbound)⟩)
        rw [← h slot, lookup_input, if_pos rfl] at hnone
        cases hnone
      have hnot' : ¬ slot' < slot := by
        intro hlt
        have hnone : ((slot, texture) :: inputs).lookup slot' = none :=
          lookup_of_lt (List.forall_mem_cons.mpr
            ⟨hlt, fun bound hbound => UInt32.lt_trans hlt (hsorted.1 bound hbound)⟩)
        rw [h slot', lookup_input, if_pos rfl] at hnone
        cases hnone
      obtain rfl : slot = slot' :=
        UInt32.le_antisymm (UInt32.not_lt.mp hnot') (UInt32.not_lt.mp hnot)
      have htexture : texture = texture' := by simpa [lookup_input] using h slot
      have hrest : inputs = inputs' := by
        refine ih (fun other => ?_) hsorted.2 hsorted'.2
        by_cases hsame : other = slot
        · rw [hsame, lookup_of_lt hsorted.1, lookup_of_lt hsorted'.1]
        · simpa [lookup_input, hsame] using h other
      rw [htexture, hrest]

/-! ## Setting attributes in order -/

/-- The slot that an attribute binds. -/
def PassAttribute.slot? : PassAttribute → Option UInt32
  | .input slot _ => some slot
  | _ => none

/-- The texture that an attribute binds a slot to. -/
def PassAttribute.bound? (slot : UInt32) : PassAttribute → Option String
  | .input bound texture => if slot = bound then some texture else none
  | _ => none

namespace Pass

theorem sorted_set {p : Pass} (h : (p.inputs.map (·.1)).Pairwise (· < ·)) (attr : PassAttribute) :
    ((p.set attr).inputs.map (·.1)).Pairwise (· < ·) := by
  cases attr with
  | input bound texture => exact sorted_bindSlot bound texture h
  | _ => exact h

theorem sorted_foldl_set (attrs : List PassAttribute) {p : Pass}
    (h : (p.inputs.map (·.1)).Pairwise (· < ·)) :
    ((attrs.foldl Pass.set p).inputs.map (·.1)).Pairwise (· < ·) := by
  induction attrs generalizing p with
  | nil => exact h
  | cons attr attrs ih => exact ih (sorted_set h attr)

end Pass

/-- Where setting an attribute changes its field and no other, of several attributes that are set
    the last one about a field counts. -/
theorem get_foldl_set {σ α φ : Type} [DecidableEq φ] {set : σ → α → σ} {get : σ → φ → Option α}
    {about : α → φ}
    (hset : ∀ s a field, get (set s a) field = if field = about a then some a else get s field)
    (attrs : List α) (s : σ) (field : φ) :
    get (attrs.foldl set s) field =
      (attrs.reverse.find? fun a => field = about a).or (get s field) := by
  induction attrs generalizing s with
  | nil => rfl
  | cons attr attrs ih =>
    rw [List.foldl_cons, ih, hset, List.reverse_cons, List.find?_append, Option.or_assoc]
    by_cases hfield : field = about attr
    · simp [hfield]
    · simp [hfield]

/-! ## The fields of a target -/

/-- The fields of a target. -/
inductive TargetField where
  | outputName
  | inputMode
  | onlyInitial
  | visibilityMask
  | lodBias
  | materialScheme
  deriving DecidableEq

/-- The field that an attribute is about. -/
def TargetAttribute.field : TargetAttribute → TargetField
  | .outputName _ => .outputName
  | .inputMode _ => .inputMode
  | .onlyInitial _ => .onlyInitial
  | .visibilityMask _ => .visibilityMask
  | .lodBias _ => .lodBias
  | .materialScheme _ => .materialScheme

namespace Target

/-- What a field of the target is, as the attribute that sets it.  The name may be missing. -/
def attribute? (g : Target) : TargetField → Option TargetAttribute
  | .outputName => g.outputName.map .outputName
  | .inputMode => some (.inputMode g.inputMode)
  | .onlyInitial => some (.onlyInitial g.onlyInitial)
  | .visibilityMask => some (.visibilityMask g.visibilityMask)
  | .lodBias => some (.lodBias g.lodBias)
  | .materialScheme => some (.materialScheme g.materialScheme)

/-- Setting an attribute changes its field and no other. -/
theorem attribute?_set (g : Target) (attr : TargetAttribute) (field : TargetField) :
    (g.set attr).attribute? field =
      if field = attr.field then some attr else g.attribute? field := by
  cases attr <;> cases field <;> rfl

@[simp] theorem passes_set (g : Target) (attr : TargetAttribute) :
    (g.set attr).passes = g.passes := by
  cases attr <;> rfl

/-- The fields and the passes are all there is to a target. -/
theorem eq_of_attribute? {g g' : Target}
    (hfields : ∀ field, g.attribute? field = g'.attribute? field)
    (hpasses : g.passes = g'.passes) : g = g' := by
  have hname : g.outputName = g'.outputName :=
    Option.map_injective (fun _ _ h => TargetAttribute.outputName.inj h) (hfields .outputName)
  have hmode := TargetAttribute.inputMode.inj (Option.some.inj (hfields .inputMode))
  have hinitial := TargetAttribute.onlyInitial.inj (Option.some.inj (hfields .onlyInitial))
  have hmask := TargetAttribute.visibilityMask.inj (Option.some.inj (hfields .visibilityMask))
  have hbias := TargetAttribute.lodBias.inj (Option.some.inj (hfields .lodBias))
  have hscheme := TargetAttribute.materialScheme.inj (Option.some.inj (hfields .materialScheme))
  cases g
  cases g'
  rw [mk.injEq]
  exact ⟨hname, hmode, hinitial, hmask, hbias, hscheme, hpasses⟩

end Target

/-! ## The fields of a pass -/

/-- The fields of a pass. -/
inductive PassField where
  | passType
  | material
  | input (slot : UInt32)
  | identifier
  | firstRenderQueue
  | lastRenderQueue
  | clearBuffers
  | clearColour
  | clearDepth
  | clearStencil
  | stencilCheck
  | stencilFunc
  | stencilRefValue
  | stencilMask
  | stencilFailOp
  | stencilDepthFailOp
  | stencilPassOp
  | stencilTwoSided
  deriving DecidableEq

/-- The field that an attribute is about. -/
def PassAttribute.field : PassAttribute → PassField
  | .passType _ => .passType
  | .material _ => .material
  | .input slot _ => .input slot
  | .identifier _ => .identifier
  | .firstRenderQueue _ => .firstRenderQueue
  | .lastRenderQueue _ => .lastRenderQueue
  | .clearBuffers _ => .clearBuffers
  | .clearColour _ => .clearColour
  | .clearDepth _ => .clearDepth
  | .clearStencil _ => .clearStencil
  | .stencilCheck _ => .stencilCheck
  | .stencilFunc _ => .stencilFunc
  | .stencilRefValue _ => .stencilRefValue
  | .stencilMask _ => .stencilMask
  | .stencilFailOp _ => .stencilFailOp
  | .stencilDepthFailOp _ => .stencilDepthFailOp
  | .stencilPassOp _ => .stencilPassOp
  | .stencilTwoSided _ => .stencilTwoSided

namespace Pass

/-- What a field of the pass is, as the attribute that sets it.  The material may be missing, and
    a slot need not be bound. -/
def attribute? (p : Pass) : PassField → Option PassAttribute
  | .passType => some (.passType p.passType)
  | .material => p.material.map .material
  | .input slot => (p.inputs.lookup slot).map (.input slot)
  | .identifier => some (.identifier p.identifier)
  | .firstRenderQueue => some (.firstRenderQueue p.firstRenderQueue)
  | .lastRenderQueue => some (.lastRenderQueue p.lastRenderQueue)
  | .clearBuffers => some (.clearBuffers p.clear.buffers)
  | .clearColour => some (.clearColour p.clear.colour)
  | .clearDepth => some (.clearDepth p.clear.depth)
  | .clearStencil => some (.clearStencil p.clear.stencil)
  | .stencilCheck => some (.stencilCheck p.stencil.check)
  | .stencilFunc => some (.stencilFunc p.stencil.func)
  | .stencilRefValue => some (.stencilRefValue p.stencil.refValue)
  | .stencilMask => some (.stencilMask p.stencil.mask)
  | .stencilFailOp => some (.stencilFailOp p.stencil.failOp)
  | .stencilDepthFailOp => some (.stencilDepthFailOp p.stencil.depthFailOp)
  | .stencilPassOp => some (.stencilPassOp p.stencil.passOp)
  | .stencilTwoSided => some (.stencilTwoSided p.stencil.twoSided)

/-- Binding a slot changes the field of the slot and no other. -/
theorem attribute?_bind (p : Pass) (slot : UInt32) (texture : String) (field : PassField) :
    (p.set (.input slot texture)).attribute? field =
      if field = .input slot then some (.input slot texture) else p.attribute? field := by
  cases field with
  | input other =>
    rw [attribute?, Pass.set, lookup_bindSlot]
    by_cases hsame : other = slot
    · simp [hsame]
    · simp [hsame, attribute?]
  | _ => rfl

/-- Setting an attribute changes its field and no other. -/
theorem attribute?_set (p : Pass) (attr : PassAttribute) (field : PassField) :
    (p.set attr).attribute? field =
      if field = attr.field then some attr else p.attribute? field := by
  cases attr with
  | input slot texture => exact attribute?_bind p slot texture field
  | _ => cases field <;> rfl

/-- The fields are all there is to a pass. -/
theorem eq_of_attribute? {p p' : Pass}
    (hfields : ∀ field, p.attribute? field = p'.attribute? field)
    (hsorted : (p.inputs.map (·.1)).Pairwise (· < ·))
    (hsorted' : (p'.inputs.map (·.1)).Pairwise (· < ·)) : p = p' := by
  have hinputs : p.inputs = p'.inputs := by
    refine eq_of_lookup (fun slot => ?_) hsorted hsorted'
    exact Option.map_injective (fun _ _ h => (PassAttribute.input.inj h).2) (hfields (.input slot))
  have hmaterial : p.material = p'.material :=
    Option.map_injective (fun _ _ h => PassAttribute.material.inj h) (hfields .material)
  -- every other field is its value
  have hclear : p.clear = p'.clear := by
    obtain ⟨_, _, _, _, _, _, ⟨_, _, _, _⟩, _⟩ := p
    obtain ⟨_, _, _, _, _, _, ⟨_, _, _, _⟩, _⟩ := p'
    cases hfields .clearBuffers
    cases hfields .clearColour
    cases hfields .clearDepth
    cases hfields .clearStencil
    rfl
  have hstencil : p.stencil = p'.stencil := by
    obtain ⟨_, _, _, _, _, _, _, ⟨_, _, _, _, _, _, _, _⟩⟩ := p
    obtain ⟨_, _, _, _, _, _, _, ⟨_, _, _, _, _, _, _, _⟩⟩ := p'
    cases hfields .stencilCheck
    cases hfields .stencilFunc
    cases hfields .stencilRefValue
    cases hfields .stencilMask
    cases hfields .stencilFailOp
    cases hfields .stencilDepthFailOp
    cases hfields .stencilPassOp
    cases hfields .stencilTwoSided
    rfl
  have hpassType := PassAttribute.passType.inj (Option.some.inj (hfields .passType))
  have hidentifier := PassAttribute.identifier.inj (Option.some.inj (hfields .identifier))
  have hfirst := PassAttribute.firstRenderQueue.inj (Option.some.inj (hfields .firstRenderQueue))
  have hlast := PassAttribute.lastRenderQueue.inj (Option.some.inj (hfields .lastRenderQueue))
  cases p
  cases p'
  rw [mk.injEq]
  exact ⟨hpassType, hidentifier, hmaterial, hinputs, hfirst, hlast, hclear, hstencil⟩

end Pass
end Compositing
