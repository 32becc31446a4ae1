import Compositing.Proofs.Scene.Names

/-! # Registries on top of others

    What a document builds does not depend on what was there before it, but
    for the numbers of its handles, the indices of its compositors and the
    names that are taken.  `on` puts a registry on top of another one, and
    `builderAmong` is the builder for which some names are taken: an operation
    on the stack is that operation on top.

    It asks for a handle that the upper registry knows, since the wording of
    an unknown handle has its number. -/

namespace Compositing

/-- The place after `n` more compositors. -/
def Place.raise (n : Nat) : Place → Place
  | .compositor c => .compositor (n + c)
  | .technique c t => .technique (n + c) t
  | .target c t slot => .target (n + c) t slot
  | .pass c t slot p => .pass (n + c) t slot p

/-- The handle after `n` more. -/
def Handle.raise (n : Nat) (handle : Handle) : Handle := ⟨n + handle.index⟩

@[simp] theorem Place.kind_raise (n : Nat) (place : Place) : (place.raise n).kind = place.kind := by
  cases place <;> rfl

/-! ## Lists -/

theorem getElem?_append_add {α : Type} (before after : List α) (i : Nat) :
    (before ++ after)[before.length + i]? = after[i]? := by
  rw [List.getElem?_append_right (Nat.le_add_right _ _), Nat.add_sub_cancel_left]

theorem modify_append_add {α : Type} (before after : List α) (i : Nat) (f : α → α) :
    (before ++ after).modify (before.length + i) f = before ++ after.modify i f := by
  induction before with
  | nil => simp
  | cons x before ih => simp [Nat.add_right_comm, ih]

/-! ## New handles -/

/-- A handle that was handed out is known. -/
theorem Registry.place?_createChild {r r' : Registry} {parent handle : Handle} {kind : ChildKind}
    (h : r.createChild parent kind = (.ok handle, r')) : (r'.place? handle).isSome := by
  unfold createChild at h
  cases hplace : r.place? parent with
  | none => simp [hplace] at h
  | some place =>
    cases hadd : r.addChild place kind with
    | error error => simp [hplace, hadd] at h
    | ok result =>
      simp only [hplace, hadd, handOut, Prod.mk.injEq, Except.ok.injEq] at h
      obtain ⟨rfl, rfl⟩ := h
      simp [Registry.place?]

/-! ## Stacks -/

namespace Registry

/-- The registry on top of another one: its compositors and its handles come after those. -/
def on (own base : Registry) : Registry where
  compositors := base.compositors ++ own.compositors
  places := base.places ++ own.places.map (Place.raise base.compositors.length)
  defaults := own.defaults

/-- Adds a compositor, unless the name is that of another one or is taken. -/
def createAmong (taken : List String) (name group : String) (r : Registry) :
    Except BuilderError Handle × Registry :=
  if name ∈ taken then (.error (.duplicateName .compositor name), r)
  else r.createCompositor name group

/-- The registry as a builder for which some names are taken. -/
def builderAmong (taken : List String) : Builder Registry :=
  ⟨createAmong taken, createChild, setAttribute⟩

/-- It only matters which names are taken. -/
theorem builderAmong_congr {taken taken' : List String}
    (h : ∀ name, name ∈ taken ↔ name ∈ taken') : builderAmong taken = builderAmong taken' := by
  have hcreate : createAmong taken = createAmong taken' := by
    funext name group r
    simp only [createAmong, h name]
  rw [builderAmong, builderAmong, hcreate]

section
variable (base own : Registry)

/-- Nothing is on top of a registry at first. -/
theorem empty_on : (empty base.defaults).on base = base := by
  simp [on, empty]

/-! ## Looking up -/

@[simp] theorem defaults_on : (own.on base).defaults = own.defaults := rfl

@[simp] theorem names_on : (own.on base).names = base.names ++ own.names := List.map_append

@[simp] theorem place?_on (handle : Handle) :
    (own.on base).place? (handle.raise base.places.length) =
      (own.place? handle).map (Place.raise base.compositors.length) := by
  simp only [place?, on, Handle.raise, getElem?_append_add, List.getElem?_map]

@[simp] theorem getElem?_on (c : Nat) :
    (own.on base).compositors[base.compositors.length + c]? = own.compositors[c]? :=
  getElem?_append_add base.compositors own.compositors c

@[simp] theorem technique?_on (c t : Nat) :
    (own.on base).technique? (base.compositors.length + c) t = own.technique? c t := by
  simp only [technique?, getElem?_on]

@[simp] theorem target?_on (c t : Nat) (slot : TargetSlot) :
    (own.on base).target? (base.compositors.length + c) t slot = own.target? c t slot := by
  simp only [target?, technique?_on]

/-! ## Changing -/

@[simp] theorem modifyCompositor_on (c : Nat) (f : Compositor → Compositor) :
    (own.on base).modifyCompositor (base.compositors.length + c) f =
      (own.modifyCompositor c f).on base := by
  simp only [modifyCompositor, on, modify_append_add]

@[simp] theorem modifyTechnique_on (c t : Nat) (f : Technique → Technique) :
    (own.on base).modifyTechnique (base.compositors.length + c) t f =
      (own.modifyTechnique c t f).on base :=
  modifyCompositor_on base own c _

@[simp] theorem modifyTarget_on (c t : Nat) (slot : TargetSlot) (f : Target → Target) :
    (own.on base).modifyTarget (base.compositors.length + c) t slot f =
      (own.modifyTarget c t slot f).on base :=
  modifyTechnique_on base own c t _

@[simp] theorem modifyPass_on (c t : Nat) (slot : TargetSlot) (p : Nat) (f : Pass → Pass) :
    (own.on base).modifyPass (base.compositors.length + c) t slot p f =
      (own.modifyPass c t slot p f).on base :=
  modifyTarget_on base own c t slot _

theorem handOut_on (place : Place) :
    (own.on base).handOut (place.raise base.compositors.length) =
      ((own.handOut place).1.raise base.places.length, (own.handOut place).2.on base) := by
  simp [handOut, on, Handle.raise]

/-! ## Operations -/

/-- The outcome of a request for a handle, on top. -/
def answerOn (answer : Except BuilderError Handle × Registry) :
    Except BuilderError Handle × Registry :=
  (answer.1.map (Handle.raise base.places.length), answer.2.on base)

/-- A compositor is added on top, unless its name is taken above or below. -/
theorem createCompositor_on (name group : String) :
    (own.on base).createCompositor name group =
      base.answerOn (own.createAmong base.names name group) := by
  unfold createCompositor createAmong
  by_cases hbelow : name ∈ base.names
  · rw [if_pos ((find?_isSome_iff _ name).mpr (by simp [hbelow])), if_pos hbelow]
    rfl
  · rw [if_neg hbelow]
    unfold createCompositor
    by_cases habove : name ∈ own.names
    · rw [if_pos ((find?_isSome_iff _ name).mpr (by simp [habove])),
        if_pos ((find?_isSome_iff _ name).mpr habove)]
      rfl
    · rw [if_neg (mt (find?_isSome_iff _ name).mp (by simp [hbelow, habove])),
        if_neg (mt (find?_isSome_iff _ name).mp habove)]
      simp [answerOn, handOut, on, Handle.raise, Place.raise, Except.map]

theorem addChild_on (parent : Place) (kind : ChildKind) :
    (own.on base).addChild (parent.raise base.compositors.length) kind =
      (own.addChild parent kind).map fun (child, added) =>
        (child.raise base.compositors.length, added.on base) := by
  cases parent with
  | compositor c =>
    cases kind with
    | technique => simp [addChild, Place.raise, Except.map]
    | _ => rfl
  | technique c t =>
    cases kind with
    | target => simp [addChild, Place.raise, Except.map]
    | _ => rfl
  | target c t slot =>
    cases kind with
    | pass => simp [addChild, Place.raise, Except.map]
    | _ => rfl
  | pass c t slot p => cases kind <;> rfl

/-- A child of an object on top is added on top. -/
theorem createChild_on {parent : Handle} (hparent : (own.place? parent).isSome)
    (kind : ChildKind) :
    (own.on base).createChild (parent.raise base.places.length) kind =
      base.answerOn (own.createChild parent kind) := by
  obtain ⟨place, hplace⟩ := Option.isSome_iff_exists.mp hparent
  simp only [createChild, place?_on, hplace, Option.map_some, addChild_on]
  cases own.addChild place kind with
  | error error => rfl
  | ok result => 
    simp only [Except.map, handOut_on]
    rfl

/-- An attribute of an object on top is set on top. -/
theorem setAttribute_on {object : Handle} (hobject : (own.place? object).isSome)
    (attr : Attribute) :
    (own.on base).setAttribute (object.raise base.places.length) attr =
      ((own.setAttribute object attr).1, (own.setAttribute object attr).2.on base) := by
  obtain ⟨place, hplace⟩ := Option.isSome_iff_exists.mp hobject
  simp only [setAttribute, place?_on, hplace, Option.map_some]
  cases place with
  | compositor c => rfl
  | technique c t =>
    cases attr with
    | texture texture =>
      simp only [Place.raise, technique?_on, modifyTechnique_on]
      split <;> rfl
    | _ => rfl
  | target c t slot =>
    cases attr with
    | target attr => simp only [Place.raise, modifyTarget_on]
    | _ => rfl
  | pass c t slot p =>
    cases attr with
    | pass attr => simp only [Place.raise, modifyPass_on]
    | _ => rfl

end
end Registry
end Compositing
