import Compositing.Proofs.Scene.Fields
import Compositing.Proofs.Scene.Growth

/-! # The objects of a registry

    An object by itself leaves out the objects inside it: so each place has its
    own, and a change at one place is no change at another.  The objects at
    all places are all there is to the compositors of a registry.

    Setting an attribute changes the object at one place.  Adding a child
    changes none: it puts objects where there were none. -/

namespace Compositing

/-- Distinct items and one that is not among them are distinct. -/
theorem nodup_append_singleton {α : Type} {l : List α} {x : α} (h : l.Nodup) (hx : x ∉ l) :
    (l ++ [x]).Nodup := by
  rw [List.nodup_append]
  refine ⟨h, by simp, ?_⟩
  intro y hy z hz heq
  rw [heq, List.mem_singleton.mp hz] at hy
  exact hx hy

theorem getElem?_append_singleton {α : Type} (l : List α) (x : α) (i : Nat) :
    (l ++ [x])[i]? = if i = l.length then some x else l[i]? := by
  by_cases hi : i = l.length
  · simp [hi]
  · rw [if_neg hi, List.getElem?_append]
    split
    · rfl
    · have hout : 1 ≤ i - l.length := by omega
      have hnone : l[i]? = none := List.getElem?_eq_none (by omega)
      rw [hnone, List.getElem?_eq_none hout]

/-! ## Objects by themselves -/

/-- An object without the objects inside it. -/
inductive SceneObject where
  | compositor (name group : String)
  | technique (textures : List Texture)
  /-- A target, its passes left out. -/
  | target (g : Target)
  | pass (p : Pass)

/-- The target without its passes. -/
def Target.bare (g : Target) : Target := { g with passes := [] }

namespace SceneObject

/-- The kind of object. -/
def kind : SceneObject → ObjectKind
  | compositor _ _ => .compositor
  | technique _ => .technique
  | target _ => .target
  | pass _ => .pass

/-- The object with an attribute set.  A texture is put behind the others. -/
def set : SceneObject → Attribute → SceneObject
  | technique textures, .texture texture => technique (textures ++ [texture])
  | target g, .target attr => target (g.set attr)
  | pass p, .pass attr => pass (p.set attr)
  | object, _ => object

/-- The second object is the first with a texture more, of a name that no other has, or with one
    field changed and all other fields as they were. -/
inductive ChangesTo : SceneObject → Attribute → SceneObject → Prop where
  | texture {textures : List Texture} {texture : Texture}
      (h : ∀ other ∈ textures, other.name ≠ texture.name) :
    ChangesTo (.technique textures) (.texture texture) (.technique (textures ++ [texture]))
  | target {g g' : Target} {attr : TargetAttribute}
      (h : ∀ field, g'.attribute? field =
        if field = attr.field then some attr else g.attribute? field)
      (hpasses : g'.passes = g.passes) :
    ChangesTo (.target g) (.target attr) (.target g')
  | pass {p p' : Pass} {attr : PassAttribute}
      (h : ∀ field, p'.attribute? field =
        if field = attr.field then some attr else p.attribute? field) :
    ChangesTo (.pass p) (.pass attr) (.pass p')

/-- The attribute is one of the object. -/
def Has : SceneObject → Attribute → Prop
  | technique textures, .texture texture => texture ∈ textures
  | target g, .target attr => g.attribute? attr.field = some attr
  | pass p, .pass attr => p.attribute? attr.field = some attr
  | _, _ => False

/-- The textures of a technique differ in name, and the slots of a pass are in ascending order. -/
def Proper : SceneObject → Prop
  | technique textures => (textures.map (·.name)).Nodup
  | pass p => (p.inputs.map (·.1)).Pairwise (· < ·)
  | compositor _ _ | target _ => True

/-- The object is as it is created. -/
def IsNew (defaults : Defaults) : SceneObject → Prop
  | compositor _ _ => True
  | technique textures => textures = []
  | target g => g = .new defaults
  | pass p => p = .new defaults

variable {object object' : SceneObject} {attr : Attribute}

theorem IsNew.proper {defaults : Defaults} (h : object.IsNew defaults) : object.Proper := by
  cases object with
  | compositor _ _ | target _ => exact trivial
  | technique textures =>
    have hnil : textures = [] := h
    rw [hnil]
    exact List.nodup_nil
  | pass p =>
    have hnew : p = .new defaults := h
    rw [hnew]
    exact .nil

/-- An attribute that was set is one of the object. -/
theorem ChangesTo.has (h : object.ChangesTo attr object') : object'.Has attr := by
  cases h with
  | texture _ => exact List.mem_append_right _ (List.mem_singleton_self _)
  | target hfields _ => exact (hfields _).trans (if_pos rfl)
  | pass hfields => exact (hfields _).trans (if_pos rfl)

/-- One field says what the object becomes, as the fields are all there is to it. -/
theorem ChangesTo.eq_set (h : object.ChangesTo attr object') (hproper : object.Proper)
    (hproper' : object'.Proper) : object' = object.set attr := by
  cases h with
  | texture _ => rfl
  | @target g g' attr hfields hpasses =>
    have hset : g' = g.set attr := by
      refine Target.eq_of_attribute? (fun field => ?_) ?_
      · rw [hfields, Target.attribute?_set]
      · rw [hpasses, Target.passes_set]
    rw [hset]
    rfl
  | @pass p p' attr hfields =>
    have hset : p' = p.set attr := by
      refine Pass.eq_of_attribute? (fun field => ?_) hproper' ?_
      · rw [hfields, Pass.attribute?_set]
      · exact Pass.sorted_set hproper attr
    rw [hset]
    rfl

/-- A change keeps the names of textures apart and the slots in order. -/
theorem Proper.set (h : object.Proper) (hchanges : object.ChangesTo attr (object.set attr)) :
    (object.set attr).Proper := by
  cases object with
  | compositor _ _ => exact trivial
  | technique textures =>
    cases attr with
    | texture texture =>
      cases hchanges with
      | texture hother =>
        have hnew : texture.name ∉ textures.map (·.name) := by
          intro hmem
          obtain ⟨other, hother', hname⟩ := List.mem_map.mp hmem
          exact hother other hother' hname
        show ((textures ++ [texture]).map (·.name)).Nodup
        rw [List.map_append]
        exact nodup_append_singleton h hnew
    | _ => exact h
  | target _ => cases attr <;> exact trivial
  | pass p =>
    cases attr with
    | pass attr => exact Pass.sorted_set h attr
    | _ => exact h

end SceneObject

/-! ## Objects at places -/

namespace Registry
variable {r r' : Registry}

/-- The pass at a path. -/
def pass? (r : Registry) (c t : Nat) (slot : TargetSlot) (p : Nat) : Option Pass :=
  (r.target? c t slot).bind (·.passes[p]?)

/-- The object at a place. -/
def object? (r : Registry) : Place → Option SceneObject
  | .compositor c => r.compositors[c]?.map fun compositor =>
    .compositor compositor.name compositor.group
  | .technique c t => (r.technique? c t).map fun technique => .technique technique.textures
  | .target c t slot => (r.target? c t slot).map fun g => .target g.bare
  | .pass c t slot p => (r.pass? c t slot p).map .pass

/-- There is an object exactly at the places whose indices are all within bounds. -/
theorem holds_iff_object? {place : Place} :
    r.Holds place ↔ ∃ object, r.object? place = some object := by
  rw [← Option.isSome_iff_exists]
  cases place with
  | compositor c | technique c t | target c t slot =>
    simp only [Holds, object?, Option.isSome_map, Option.isSome_iff_exists]
  | pass c t slot p =>
    simp only [Holds, object?, pass?, Option.isSome_map, Option.isSome_iff_exists,
      Option.bind_eq_some_iff]
    exact exists_comm

theorem kind_of_object? {place : Place} {object : SceneObject}
    (h : r.object? place = some object) : object.kind = place.kind := by
  cases place <;> obtain ⟨_, _, rfl⟩ := Option.map_eq_some_iff.mp h <;> rfl

/-! ## All there is -/

/-- A target is its own object and its passes. -/
theorem target?_eq_of_object? (h : ∀ place, r.object? place = r'.object? place) (c t : Nat)
    (slot : TargetSlot) : r.target? c t slot = r'.target? c t slot := by
  have hbare := h (.target c t slot)
  have hpass := fun p => h (.pass c t slot p)
  simp only [object?, pass?] at hbare hpass
  generalize r.target? c t slot = g at hbare hpass ⊢
  generalize r'.target? c t slot = g' at hbare hpass ⊢
  cases g with
  | none => cases g' with
    | none => rfl
    | some g' => cases hbare
  | some g => cases g' with
    | none => cases hbare
    | some g' =>
      have hbare : g.bare = g'.bare := SceneObject.target.inj (Option.some.inj hbare)
      have hpasses : g.passes = g'.passes := List.ext_getElem? fun p =>
        Option.map_injective (fun _ _ h => SceneObject.pass.inj h) (hpass p)
      have hwhole : { g.bare with passes := g.passes } = { g'.bare with passes := g'.passes } := by
        rw [hbare, hpasses]
      exact congrArg some hwhole

/-- A technique is its own object and its targets. -/
theorem technique?_eq_of_object? (h : ∀ place, r.object? place = r'.object? place) (c t : Nat) :
    r.technique? c t = r'.technique? c t := by
  have hown := h (.technique c t)
  have htarget := target?_eq_of_object? h c t
  simp only [object?, target?] at hown htarget
  generalize r.technique? c t = technique at hown htarget ⊢
  generalize r'.technique? c t = technique' at hown htarget ⊢
  cases technique with
  | none => cases technique' with
    | none => rfl
    | some technique' => cases hown
  | some technique => cases technique' with
    | none => cases hown
    | some technique' =>
      have htextures := SceneObject.technique.inj (Option.some.inj hown)
      have houtput : technique.output = technique'.output := Option.some.inj (htarget .output)
      have htargets : technique.targets = technique'.targets :=
        List.ext_getElem? fun i => htarget (.named i)
      cases technique
      cases technique'
      rw [Option.some.injEq, Technique.mk.injEq]
      exact ⟨htextures, htargets, houtput⟩

/-- The objects at all places are all there is to the compositors. -/
theorem compositors_eq_of_object? (h : ∀ place, r.object? place = r'.object? place) :
    r.compositors = r'.compositors := by
  refine List.ext_getElem? fun c => ?_
  have hown := h (.compositor c)
  have htechnique := technique?_eq_of_object? h c
  simp only [object?, technique?] at hown htechnique
  generalize r.compositors[c]? = compositor at hown htechnique ⊢
  generalize r'.compositors[c]? = compositor' at hown htechnique ⊢
  cases compositor with
  | none => cases compositor' with
    | none => rfl
    | some compositor' => cases hown
  | some compositor => cases compositor' with
    | none => cases hown
    | some compositor' =>
      obtain ⟨hname, hgroup⟩ := SceneObject.compositor.inj (Option.some.inj hown)
      have htechniques : compositor.techniques = compositor'.techniques :=
        List.ext_getElem? htechnique
      cases compositor
      cases compositor'
      rw [Option.some.injEq, Compositor.mk.injEq]
      exact ⟨hname, hgroup, htechniques⟩

/-! ## Changes at one path -/

section
variable (r) (c t : Nat) (slot : TargetSlot) (c' t' : Nat) (slot' : TargetSlot)

theorem getElem?_modifyCompositor (f : Compositor → Compositor) :
    (r.modifyCompositor c f).compositors[c']? =
      r.compositors[c']?.map fun x => if c' = c then f x else x := by
  simp only [modifyCompositor, List.getElem?_modify, @eq_comm _ c' c]
  rfl

/-- The technique at the path is changed, and no other. -/
theorem technique?_modifyTechnique_eq (f : Technique → Technique) :
    (r.modifyTechnique c t f).technique? c' t' =
      (r.technique? c' t').map fun x => if c' = c ∧ t' = t then f x else x := by
  simp only [technique?, modifyTechnique, getElem?_modifyCompositor]
  cases r.compositors[c']? with
  | none => rfl
  | some compositor =>
    by_cases hc : c' = c
    · simp [hc, List.getElem?_modify, @eq_comm _ t' t]
    · simp [hc]

/-- The target at the path is changed, and no other. -/
theorem target?_modifyTarget_eq (f : Target → Target) :
    (r.modifyTarget c t slot f).target? c' t' slot' =
      (r.target? c' t' slot').map fun x =>
        if (c' = c ∧ t' = t) ∧ slot' = slot then f x else x := by
  simp only [target?, modifyTarget, technique?_modifyTechnique_eq]
  cases r.technique? c' t' with
  | none => rfl
  | some technique =>
    by_cases hpath : c' = c ∧ t' = t
    · simp only [@eq_comm _ slot' slot]
      cases slot with
      | output => cases slot' <;> simp [hpath, Technique.modifyTarget, Technique.target?]
      | named i =>
        cases slot' <;>
          simp [hpath, Technique.modifyTarget, Technique.target?, List.getElem?_modify]
    · simp [hpath]

/-- The pass at the path is changed, and no other. -/
theorem pass?_modifyPass_eq (p p' : Nat) (f : Pass → Pass) :
    (r.modifyPass c t slot p f).pass? c' t' slot' p' =
      (r.pass? c' t' slot' p').map fun x =>
        if ((c' = c ∧ t' = t) ∧ slot' = slot) ∧ p' = p then f x else x := by
  simp only [pass?, modifyPass, target?_modifyTarget_eq]
  cases r.target? c' t' slot' with
  | none => rfl
  | some g =>
    by_cases hpath : (c' = c ∧ t' = t) ∧ slot' = slot
    · simp [hpath, List.getElem?_modify, @eq_comm _ p' p]
    · simp [hpath]

/-! ## Objects that are not changed -/

/-- A change inside compositors. -/
theorem object?_modifyCompositor {f : Compositor → Compositor}
    (hname : ∀ x, (f x).name = x.name) (hgroup : ∀ x, (f x).group = x.group) :
    (r.modifyCompositor c f).object? (.compositor c') = r.object? (.compositor c') := by
  simp only [object?, getElem?_modifyCompositor, Option.map_map]
  congr 1
  funext compositor
  show SceneObject.compositor _ _ = .compositor compositor.name compositor.group
  split
  · rw [hname, hgroup]
  · rfl

theorem object?_modifyTechnique_compositor (f : Technique → Technique) :
    (r.modifyTechnique c t f).object? (.compositor c') = r.object? (.compositor c') :=
  r.object?_modifyCompositor c c' (fun _ => rfl) (fun _ => rfl)

/-- A change inside techniques. -/
theorem object?_modifyTechnique {f : Technique → Technique}
    (hf : ∀ x, (f x).textures = x.textures) :
    (r.modifyTechnique c t f).object? (.technique c' t') = r.object? (.technique c' t') := by
  simp only [object?, technique?_modifyTechnique_eq, Option.map_map]
  congr 1
  funext technique
  show SceneObject.technique _ = .technique technique.textures
  split
  · rw [hf]
  · rfl

theorem object?_modifyTarget_technique (f : Target → Target) :
    (r.modifyTarget c t slot f).object? (.technique c' t') = r.object? (.technique c' t') :=
  r.object?_modifyTechnique c t c' t' fun _ => by cases slot <;> rfl

/-- A change inside targets. -/
theorem object?_modifyTarget {f : Target → Target} (hf : ∀ x, (f x).bare = x.bare) :
    (r.modifyTarget c t slot f).object? (.target c' t' slot') =
      r.object? (.target c' t' slot') := by
  simp only [object?, target?_modifyTarget_eq, Option.map_map]
  congr 1
  funext g
  show SceneObject.target _ = .target g.bare
  split
  · rw [hf]
  · rfl

end

/-! ## Setting an attribute -/

/-- The second registry is the first with an attribute set for the object at a place. -/
structure Changes (r : Registry) (place : Place) (attr : Attribute) (r' : Registry) : Prop where
  places : r'.places = r.places
  defaults : r'.defaults = r.defaults
  object : ∃ object, r.object? place = some object ∧
    r'.object? place = some (object.set attr) ∧ object.ChangesTo attr (object.set attr)
  others : ∀ other, other ≠ place → r'.object? other = r.object? other

/-- There is only one such registry. -/
theorem Changes.unique {place : Place} {attr : Attribute} {r₁ r₂ : Registry}
    (h₁ : r.Changes place attr r₁) (h₂ : r.Changes place attr r₂) : r₁ = r₂ := by
  have hcompositors : r₁.compositors = r₂.compositors := by
    refine compositors_eq_of_object? fun other => ?_
    by_cases hsame : other = place
    · obtain ⟨object, hobject, hset, _⟩ := h₁.object
      obtain ⟨object', hobject', hset', _⟩ := h₂.object
      obtain rfl := Option.some.inj (hobject.symm.trans hobject')
      rw [hsame, hset, hset']
    · rw [h₁.others other hsame, h₂.others other hsame]
  have hplaces := h₁.places.trans h₂.places.symm
  have hdefaults := h₁.defaults.trans h₂.defaults.symm
  cases r₁
  cases r₂
  rw [mk.injEq]
  exact ⟨hcompositors, hplaces, hdefaults⟩

section
variable {c t : Nat} {slot : TargetSlot}

/-- A technique is given a texture. -/
theorem changes_texture {technique : Technique} (htechnique : r.technique? c t = some technique)
    {texture : Texture} (hnew : ∀ other ∈ technique.textures, other.name ≠ texture.name) :
    r.Changes (.technique c t) (.texture texture)
      (r.modifyTechnique c t fun technique =>
        { technique with textures := technique.textures ++ [texture] }) where
  places := rfl
  defaults := rfl
  object := by
    refine ⟨.technique technique.textures, ?_, ?_, .texture hnew⟩
    · simp [object?, htechnique]
    · simp [object?, htechnique, SceneObject.set]
  others := by
    intro other hother
    -- a texture is no target
    have htarget : ∀ c' t' slot', (r.modifyTechnique c t fun technique =>
        { technique with textures := technique.textures ++ [texture] }).target? c' t' slot' =
          r.target? c' t' slot' := by
      intro c' t' slot'
      rw [target?, technique?_modifyTechnique_eq, target?]
      cases r.technique? c' t' with
      | none => rfl
      | some _ =>
        show Technique.target? _ slot' = _
        split <;> cases slot' <;> rfl
    cases other with
    | compositor c' => exact object?_modifyTechnique_compositor r c t c' _
    | technique c' t' =>
      have hne : ¬ (c' = c ∧ t' = t) := by
        rintro ⟨rfl, rfl⟩
        exact hother rfl
      simp [object?, technique?_modifyTechnique_eq, hne]
    | target c' t' slot' => rw [object?, htarget, object?]
    | pass c' t' slot' p' => rw [object?, pass?, htarget, object?, pass?]

/-- A target has an attribute set. -/
theorem changes_target {g : Target} (htarget : r.target? c t slot = some g)
    (attr : TargetAttribute) :
    r.Changes (.target c t slot) (.target attr) (r.modifyTarget c t slot (·.set attr)) where
  places := rfl
  defaults := rfl
  object := by
    have hbare : (g.set attr).bare = g.bare.set attr := by cases attr <;> rfl
    refine ⟨.target g.bare, ?_, ?_, .target (g.bare.attribute?_set attr) ?_⟩
    · simp [object?, htarget]
    · simp [object?, htarget, SceneObject.set, hbare]
    · exact g.bare.passes_set attr
  others := by
    intro other hother
    cases other with
    | compositor c' => exact object?_modifyTechnique_compositor r c t c' _
    | technique c' t' => exact object?_modifyTarget_technique r c t slot c' t' _
    | target c' t' slot' =>
      have hne : ¬ ((c' = c ∧ t' = t) ∧ slot' = slot) := by
        rintro ⟨⟨rfl, rfl⟩, rfl⟩
        exact hother rfl
      simp [object?, target?_modifyTarget_eq, hne]
    | pass c' t' slot' p' =>
      simp only [object?, pass?, target?_modifyTarget_eq]
      cases r.target? c' t' slot' with
      | none => rfl
      | some g' =>
        -- the passes of the target are as they were
        simp only [Option.map_some, Option.bind_some]
        split
        · rw [Target.passes_set]
        · rfl

/-- A pass has an attribute set. -/
theorem changes_pass {p : Nat} {pass : Pass} (hpass : r.pass? c t slot p = some pass)
    (attr : PassAttribute) :
    r.Changes (.pass c t slot p) (.pass attr) (r.modifyPass c t slot p (·.set attr)) where
  places := rfl
  defaults := rfl
  object := by
    refine ⟨.pass pass, ?_, ?_, .pass (pass.attribute?_set attr)⟩
    · simp [object?, hpass]
    · simp [object?, pass?_modifyPass_eq, hpass, SceneObject.set]
  others := by
    intro other hother
    cases other with
    | compositor c' => exact object?_modifyTechnique_compositor r c t c' _
    | technique c' t' => exact object?_modifyTarget_technique r c t slot c' t' _
    | target c' t' slot' => exact r.object?_modifyTarget c t slot c' t' slot' fun _ => rfl
    | pass c' t' slot' p' =>
      have hne : ¬ (((c' = c ∧ t' = t) ∧ slot' = slot) ∧ p' = p) := by
        rintro ⟨⟨⟨rfl, rfl⟩, rfl⟩, rfl⟩
        exact hother rfl
      simp [object?, pass?_modifyPass_eq, hne]

end

/-! ## Adding an object -/

/-- The places where there is an object more when there is one for the place: a technique comes
    with its output target, and an output target is there already. -/
def made : Place → List Place
  | .technique c t => [.technique c t, .target c t .output]
  | .target _ _ .output => []
  | place => [place]

/-- Only for an output target nothing is made. -/
theorem eq_output_of_not_mem_made {place : Place} (h : place ∉ made place) :
    ∃ c t, place = .target c t .output := by
  cases place with
  | compositor c | technique c t | pass c t slot p => exact absurd (.head _) h
  | target c t slot => cases slot with
    | output => exact ⟨c, t, rfl⟩
    | named i => exact absurd (.head _) h

/-- The second registry is the first with new objects for a place, and nothing else. -/
structure Makes (r : Registry) (place : Place) (r' : Registry) : Prop where
  defaults : r'.defaults = r.defaults
  new : ∀ other ∈ made place, r.object? other = none ∧
    ∃ object, r'.object? other = some object ∧ object.IsNew r.defaults
  others : ∀ other ∉ made place, r'.object? other = r.object? other

/-- There is an object at each place where one is made. -/
theorem Makes.object {place other : Place} (h : r.Makes place r') (hother : other ∈ made place) :
    ∃ object, r'.object? other = some object := by
  obtain ⟨_, object, hobject, _⟩ := h.new other hother
  exact ⟨object, hobject⟩

/-- An object stays as it is when others are made. -/
theorem Makes.keeps {place other : Place} {object : SceneObject} (h : r.Makes place r')
    (hobject : r.object? other = some object) : r'.object? other = some object := by
  by_cases hmade : other ∈ made place
  · rw [(h.new other hmade).1] at hobject
    cases hobject
  · rw [h.others other hmade, hobject]

section
variable {c t : Nat} {slot : TargetSlot}

/-- A compositor is added. -/
theorem makes_compositor (r : Registry) (name group : String) :
    r.Makes (.compositor r.compositors.length)
      { r with compositors := r.compositors ++ [⟨name, group, []⟩] } where
  defaults := rfl
  new := by
    intro other hother
    rw [List.mem_singleton.mp hother]
    refine ⟨?_, .compositor name group, ?_, trivial⟩
    · simp [object?]
    · simp [object?]
  others := by
    intro other hother
    -- the new compositor has no technique
    have htechnique : ∀ c t, technique?
        { r with compositors := r.compositors ++ [⟨name, group, []⟩] } c t = r.technique? c t := by
      intro c t
      simp only [technique?, getElem?_append_singleton]
      split
      · rename_i hc
        simp [hc]
      · rfl
    cases other with
    | compositor c =>
      have hne : c ≠ r.compositors.length := by
        rintro rfl
        exact hother (List.mem_singleton_self _)
      simp only [object?, getElem?_append_singleton, if_neg hne]
    | technique c t => rw [object?, htechnique, object?]
    | target c t slot => rw [object?, target?, htechnique, object?, target?]
    | pass c t slot p => rw [object?, pass?, target?, htechnique, object?, pass?, target?]

/-- A compositor is given a technique. -/
theorem makes_technique {compositor : Compositor}
    (hcompositor : r.compositors[c]? = some compositor) :
    r.Makes (.technique c compositor.techniques.length)
      (r.modifyCompositor c fun compositor =>
        { compositor with techniques := compositor.techniques ++ [.new r.defaults] }) := by
  generalize hr : (r.modifyCompositor c fun compositor =>
    { compositor with techniques := compositor.techniques ++ [.new r.defaults] }) = r'
  have hnone : r.technique? c compositor.techniques.length = none := by
    simp [technique?, hcompositor]
  -- the new technique is behind the others of the compositor, and the rest is as it was
  have htechnique : ∀ c' t', r'.technique? c' t' =
      if c' = c ∧ t' = compositor.techniques.length then some (.new r.defaults)
      else r.technique? c' t' := by
    intro c' t'
    rw [← hr]
    simp only [technique?, getElem?_modifyCompositor]
    by_cases hc : c' = c
    · simp [hc, hcompositor, getElem?_append_singleton]
    · simp [hc]
  have hnew : r'.technique? c compositor.techniques.length = some (.new r.defaults) := by
    rw [htechnique, if_pos ⟨rfl, rfl⟩]
  refine ⟨by rw [← hr]; rfl, ?_, ?_⟩
  · intro other hother
    rcases List.mem_cons.mp hother with rfl | hother
    · refine ⟨by simp [object?, hnone], .technique [], ?_, rfl⟩
      rw [object?, hnew]
      rfl
    · rw [List.mem_singleton.mp hother]
      refine ⟨by simp [object?, target?, hnone], .target (.new r.defaults), ?_, rfl⟩
      rw [object?, target?, hnew]
      rfl
  · intro other hother
    cases other with
    | compositor c' =>
      rw [← hr]
      exact r.object?_modifyCompositor c c' (fun _ => rfl) (fun _ => rfl)
    | technique c' t' =>
      have hne : ¬ (c' = c ∧ t' = compositor.techniques.length) := by
        rintro ⟨rfl, rfl⟩
        exact hother (.head _)
      rw [object?, htechnique, if_neg hne, object?]
    | target c' t' slot' =>
      rw [object?, target?, htechnique, object?, target?]
      by_cases hpath : c' = c ∧ t' = compositor.techniques.length
      · obtain ⟨rfl, rfl⟩ := hpath
        cases slot' with
        | output => exact absurd (.tail _ (.head _)) hother
        | named i =>
          rw [if_pos ⟨rfl, rfl⟩, hnone]
          rfl
      · rw [if_neg hpath]
    | pass c' t' slot' p' =>
      rw [object?, pass?, target?, htechnique, object?, pass?, target?]
      by_cases hpath : c' = c ∧ t' = compositor.techniques.length
      · -- no target of the new technique has a pass
        obtain ⟨rfl, rfl⟩ := hpath
        rw [if_pos ⟨rfl, rfl⟩, hnone]
        cases slot' <;> rfl
      · rw [if_neg hpath]

/-- A technique is given a target. -/
theorem makes_target {technique : Technique} (htechnique : r.technique? c t = some technique) :
    r.Makes (.target c t (.named technique.targets.length))
      (r.modifyTechnique c t fun technique =>
        { technique with targets := technique.targets ++ [.new r.defaults] }) := by
  generalize hr : (r.modifyTechnique c t fun technique =>
    { technique with targets := technique.targets ++ [.new r.defaults] }) = r'
  have hnone : r.target? c t (.named technique.targets.length) = none := by
    simp [target?, htechnique, Technique.target?]
  have htarget : ∀ c' t' slot', r'.target? c' t' slot' =
      if (c' = c ∧ t' = t) ∧ slot' = .named technique.targets.length then some (.new r.defaults)
      else r.target? c' t' slot' := by
    intro c' t' slot'
    rw [← hr]
    simp only [target?, technique?_modifyTechnique_eq]
    by_cases hpath : c' = c ∧ t' = t
    · cases slot' <;> simp [hpath, htechnique, Technique.target?, getElem?_append_singleton]
    · simp [hpath]
  refine ⟨by rw [← hr]; rfl, ?_, ?_⟩
  · intro other hother
    rw [List.mem_singleton.mp hother]
    refine ⟨by simp [object?, hnone], .target (.new r.defaults), ?_, rfl⟩
    rw [object?, htarget, if_pos ⟨⟨rfl, rfl⟩, rfl⟩]
    rfl
  · intro other hother
    cases other with
    | compositor c' =>
      rw [← hr]
      exact object?_modifyTechnique_compositor r c t c' _
    | technique c' t' =>
      rw [← hr]
      exact r.object?_modifyTechnique c t c' t' fun _ => rfl
    | target c' t' slot' =>
      have hne : ¬ ((c' = c ∧ t' = t) ∧ slot' = .named technique.targets.length) := by
        rintro ⟨⟨rfl, rfl⟩, rfl⟩
        exact hother (.head _)
      rw [object?, htarget, if_neg hne, object?]
    | pass c' t' slot' p' =>
      rw [object?, pass?, htarget, object?, pass?]
      by_cases hpath : (c' = c ∧ t' = t) ∧ slot' = .named technique.targets.length
      · -- the new target has no pass
        obtain ⟨⟨rfl, rfl⟩, rfl⟩ := hpath
        rw [if_pos ⟨⟨rfl, rfl⟩, rfl⟩, hnone]
        rfl
      · rw [if_neg hpath]

/-- A target is given a pass. -/
theorem makes_pass {g : Target} (htarget : r.target? c t slot = some g) :
    r.Makes (.pass c t slot g.passes.length)
      (r.modifyTarget c t slot fun target =>
        { target with passes := target.passes ++ [.new r.defaults] }) := by
  generalize hr : (r.modifyTarget c t slot fun target =>
    { target with passes := target.passes ++ [.new r.defaults] }) = r'
  have hpass : ∀ c' t' slot' p', r'.pass? c' t' slot' p' =
      if ((c' = c ∧ t' = t) ∧ slot' = slot) ∧ p' = g.passes.length then some (.new r.defaults)
      else r.pass? c' t' slot' p' := by
    intro c' t' slot' p'
    rw [← hr]
    simp only [pass?, target?_modifyTarget_eq]
    by_cases hpath : (c' = c ∧ t' = t) ∧ slot' = slot
    · simp [hpath, htarget, getElem?_append_singleton]
    · simp [hpath]
  refine ⟨by rw [← hr]; rfl, ?_, ?_⟩
  · intro other hother
    rw [List.mem_singleton.mp hother]
    refine ⟨by simp [object?, pass?, htarget], .pass (.new r.defaults), ?_, rfl⟩
    rw [object?, hpass, if_pos ⟨⟨⟨rfl, rfl⟩, rfl⟩, rfl⟩]
    rfl
  · intro other hother
    cases other with
    | compositor c' =>
      rw [← hr]
      exact object?_modifyTechnique_compositor r c t c' _
    | technique c' t' =>
      rw [← hr]
      exact object?_modifyTarget_technique r c t slot c' t' _
    | target c' t' slot' =>
      rw [← hr]
      exact r.object?_modifyTarget c t slot c' t' slot' fun _ => rfl
    | pass c' t' slot' p' =>
      have hne : ¬ (((c' = c ∧ t' = t) ∧ slot' = slot) ∧ p' = g.passes.length) := by
        rintro ⟨⟨⟨rfl, rfl⟩, rfl⟩, rfl⟩
        exact hother (.head _)
      rw [object?, hpass, if_neg hne, object?]

end

end Registry
end Compositing
