import Compositing.Proofs.Scene.Arena

/-! # Creating one object

    A block of a script is opened by one request for an object, or by two: some
    objects are given an attribute as soon as they are there.  `Creates` says
    what either comes to.  The second request cannot be refused once the first
    is granted, so no object is left without its attribute. -/

namespace Compositing.Registry
variable {r r₁ r' : Registry}

/-! ## The registry with one object more -/

/-- The second registry is the first with an object at a place and a handle for it, and otherwise
    as it was.  A technique comes with its output target; an output target was there before, and
    only the handle is new. -/
structure Creates (r : Registry) (place : Place) (object : SceneObject) (r' : Registry) :
    Prop where
  defaults : r'.defaults = r.defaults
  places : r'.places = r.places ++ [place]
  object : r'.object? place = some object
  absent : ∀ other ∈ made place, r.object? other = none
  inside : ∀ other ∈ made place, other ≠ place →
    ∃ new, r'.object? other = some new ∧ new.IsNew r.defaults
  others : ∀ other ∉ made place, r'.object? other = r.object? other

section
variable {place : Place} {object : SceneObject}

/-- The handle for the object. -/
theorem Creates.place? (h : r.Creates place object r') :
    r'.place? ⟨r.places.length⟩ = some place := by
  show r'.places[r.places.length]? = some place
  rw [h.places, getElem?_append_singleton, if_pos rfl]

theorem Creates.holds (h : r.Creates place object r') : r'.Holds place :=
  holds_iff_object?.mpr ⟨object, h.object⟩

/-- The compositors are as they were when a handle for an output target is handed out. -/
theorem Creates.compositors_eq {c t : Nat} (h : r.Creates (.target c t .output) object r') :
    r'.compositors = r.compositors :=
  compositors_eq_of_object? fun other => h.others other List.not_mem_nil

/-- An object that was made and handed out. -/
theorem HandsOut.creates (h : r.HandsOut place r') (hobject : r'.object? place = some object) :
    r.Creates place object r' where
  defaults := h.makes.defaults
  places := h.places
  object := hobject
  absent other hother := (h.makes.new other hother).1
  inside other hother _ := (h.makes.new other hother).2
  others := h.makes.others

/-- An object that is given an attribute as soon as it is made. -/
theorem Creates.set {attr : Attribute} (h : r.Creates place object r₁) (hmade : place ∈ made place)
    (hchanges : r₁.Changes place attr r') : r.Creates place (object.set attr) r' where
  defaults := hchanges.defaults.trans h.defaults
  places := hchanges.places.trans h.places
  object := by
    obtain ⟨old, hold, hset, _⟩ := hchanges.object
    rw [h.object] at hold
    cases hold
    exact hset
  absent := h.absent
  inside := by
    intro other hother hne
    rw [hchanges.others other hne]
    exact h.inside other hother hne
  others := by
    intro other hother
    have hne : other ≠ place := fun heq => hother (heq ▸ hmade)
    rw [hchanges.others other hne]
    exact h.others other hother

end

/-! ## New objects by kind -/

section
variable {c t p : Nat} {slot : TargetSlot}

theorem HandsOut.creates_technique (h : r.HandsOut (.technique c t) r') :
    r.Creates (.technique c t) (.technique []) r' := by
  obtain ⟨_, object, hobject, hnew⟩ := h.makes.new (.technique c t) (.head _)
  have hkind := kind_of_object? hobject
  cases object with
  | technique textures =>
    have hnone : textures = [] := hnew
    rw [hnone] at hobject
    exact h.creates hobject
  | compositor _ _ | target _ | pass _ => cases hkind

theorem HandsOut.creates_target (h : r.HandsOut (.target c t (.named p)) r') :
    r.Creates (.target c t (.named p)) (.target (.new r.defaults)) r' := by
  obtain ⟨_, object, hobject, hnew⟩ := h.makes.new (.target c t (.named p)) (.head _)
  have hkind := kind_of_object? hobject
  cases object with
  | target g =>
    have hnew : g = .new r.defaults := hnew
    rw [hnew] at hobject
    exact h.creates hobject
  | compositor _ _ | technique _ | pass _ => cases hkind

/-- The output target is the one that was there. -/
theorem HandsOut.creates_output (h : r.HandsOut (.target c t .output) r') :
    ∃ g, r.object? (.target c t .output) = some (.target g) ∧
      r.Creates (.target c t .output) (.target g) r' := by
  obtain ⟨object, hobject⟩ := h.object
  have hkind := kind_of_object? hobject
  cases object with
  | target g =>
    have hsame := h.makes.others (.target c t .output) List.not_mem_nil
    exact ⟨g, hsame.symm.trans hobject, h.creates hobject⟩
  | compositor _ _ | technique _ | pass _ => cases hkind

theorem HandsOut.creates_pass (h : r.HandsOut (.pass c t slot p) r') :
    r.Creates (.pass c t slot p) (.pass (.new r.defaults)) r' := by
  obtain ⟨_, object, hobject, hnew⟩ := h.makes.new (.pass c t slot p) (.head _)
  have hkind := kind_of_object? hobject
  cases object with
  | pass pass =>
    have hnew : pass = .new r.defaults := hnew
    rw [hnew] at hobject
    exact h.creates hobject
  | compositor _ _ | technique _ | target _ => cases hkind

end

/-! ## Requests -/

section
variable (hsound : r.Sound)
include hsound

/-- A compositor is created, or nothing is changed. -/
theorem createCompositor_creates (name group : String) :
    (∃ r', r.createCompositor name group = (.ok ⟨r.places.length⟩, r') ∧
      r.Creates (.compositor r.compositors.length) (.compositor name group) r') ∨
    ∃ error, r.createCompositor name group = (.error error, r) := by
  have hanswers := answers hsound (.createCompositor name group)
  rcases hcreate : r.createCompositor name group with ⟨error | handle, r'⟩
  · simp only [call, hcreate] at hanswers
    cases hanswers with
    | refused _ => exact .inr ⟨error, rfl⟩
  · simp only [call, hcreate] at hanswers
    cases hanswers with
    | compositorAdded _ hout hobject _ => exact .inl ⟨r', rfl, hout.creates hobject⟩

variable {place : Place}

/-- A child that the object of a handle can own is handed out. -/
theorem createChild_handsOut {parent : Handle} {kind : ChildKind}
    (hplace : r.place? parent = some place) (hchild : ∃ child, IsChild kind place child) :
    ∃ child r', r.createChild parent kind = (.ok ⟨r.places.length⟩, r') ∧
      IsChild kind place child ∧ r.HandsOut child r' := by
  have hanswers := answers hsound (.createChild parent kind)
  rcases hcreate : r.createChild parent kind with ⟨error | handle, r'⟩
  · simp only [call, hcreate] at hanswers
    obtain ⟨child, hchild⟩ := hchild
    cases hanswers with
    | refused hrefuses => cases hrefuses with
      | unknownParent hnone =>
        rw [hplace] at hnone
        cases hnone
      | notOwned hplace' hno =>
        rw [hplace] at hplace'
        cases hplace'
        exact absurd hchild (hno child)
  · simp only [call, hcreate] at hanswers
    cases hanswers with
    | childAdded hplace' hchild hout _ =>
      rw [hplace] at hplace'
      cases hplace'
      exact ⟨_, r', rfl, hchild, hout⟩

variable {object : Handle} {attr : Attribute}

/-- An attribute that the object of a handle has is set, unless it is a texture whose name is
    taken, and then nothing is changed. -/
theorem setAttribute_changes (hplace : r.place? object = some place) (htakes : Takes place attr) :
    (∃ r', r.setAttribute object attr = (.ok (), r') ∧ r.Changes place attr r') ∨
    (∃ texture, attr = .texture texture) ∧
      ∃ error, r.setAttribute object attr = (.error error, r) := by
  have hanswers := answers hsound (.setAttribute object attr)
  rcases hset : r.setAttribute object attr with ⟨error | ⟨⟩, r'⟩
  · simp only [call, hset] at hanswers
    cases hanswers with
    | refused hrefuses => cases hrefuses with
      | unknownObject hnone =>
        rw [hplace] at hnone
        cases hnone
      | notTaken hplace' hno =>
        rw [hplace] at hplace'
        cases hplace'
        exact absurd htakes hno
      | textureTaken _ _ _ => exact .inr ⟨⟨_, rfl⟩, _, rfl⟩
  · simp only [call, hset] at hanswers
    cases hanswers with
    | attributeSet hplace' _ hchanges _ =>
      rw [hplace] at hplace'
      cases hplace'
      exact .inl ⟨r', rfl, hchanges⟩

/-- A child that is asked for together with an attribute it has is created with it: after the
    first request the second one is granted as well. -/
theorem createChild_set {parent : Handle} {kind : ChildKind} (attr : Attribute)
    (hplace : r.place? parent = some place) (hchild : ∃ child, IsChild kind place child)
    (htakes : ∀ child, IsChild kind place child → Takes child attr)
    (hattr : ∀ texture, attr ≠ .texture texture) :
    ∃ child r₁ r', r.createChild parent kind = (.ok ⟨r.places.length⟩, r₁) ∧
      r₁.setAttribute ⟨r.places.length⟩ attr = (.ok (), r') ∧
      IsChild kind place child ∧ r.HandsOut child r₁ ∧ r₁.Changes child attr r' := by
  obtain ⟨child, r₁, hcreate, hchild, hout⟩ := createChild_handsOut hsound hplace hchild
  -- the handle is new, and stands for the child
  have hhandle : r₁.place? ⟨r.places.length⟩ = some child :=
    (hout.place?_eq_some_iff _).mpr (.inr ⟨rfl, rfl⟩)
  rcases setAttribute_changes (hsound.handsOut hout) hhandle (htakes child hchild) with
    ⟨r', hset, hchanges⟩ | ⟨⟨texture, htexture⟩, _⟩
  · exact ⟨child, r₁, r', hcreate, hset, hchild, hout, hchanges⟩
  · exact absurd htexture (hattr texture)

end
end Compositing.Registry
