import Compositing.Scene.Registry

/-! # Registries grow

    No operation takes an object out of a registry or moves it: an object that
    is at a place stays there, whatever else is added or changed, and a handle
    goes on to stand for its place.  So a registry that builder calls lead to
    has an object at each place it has handed out.

    `Grows` says this for a step and for any number of steps; the operations
    are described by the place they add and by the ways they can fail. -/

namespace Compositing

/-! ## Lists whose items stay -/

/-- Each item of the first list has one at its index in the second that it is related to. -/
def Stays {α : Type} (related : α → α → Prop) (l l' : List α) : Prop :=
  ∀ (i : Nat) (x : α), l[i]? = some x → ∃ y, l'[i]? = some y ∧ related x y

namespace Stays
variable {α : Type} {related : α → α → Prop} {l l' l'' : List α}

theorem refl (hrefl : ∀ x, related x x) (l : List α) : Stays related l l :=
  fun _ x h => ⟨x, h, hrefl x⟩

theorem trans (htrans : ∀ x y z, related x y → related y z → related x z)
    (h : Stays related l l') (h' : Stays related l' l'') : Stays related l l'' := by
  intro i x hx
  obtain ⟨y, hy, hxy⟩ := h i x hx
  obtain ⟨z, hz, hyz⟩ := h' i y hy
  exact ⟨z, hz, htrans x y z hxy hyz⟩

theorem append (hrefl : ∀ x, related x x) (l more : List α) :
    Stays related l (l ++ more) := by
  intro i x hx
  have hlt : i < l.length := (List.getElem?_eq_some_iff.mp hx).1
  exact ⟨x, by rw [List.getElem?_append_left hlt, hx], hrefl x⟩

theorem modify (hrefl : ∀ x, related x x) {f : α → α} (hf : ∀ x, related x (f x))
    (l : List α) (n : Nat) : Stays related l (l.modify n f) := by
  intro i x hx
  by_cases hi : n = i
  · exact ⟨f x, by simp [hx, hi], hf x⟩
  · exact ⟨x, by simp [hx, hi], hrefl x⟩

end Stays

/-! ## Objects that grow -/

/-- The passes of the target stay. -/
def Target.Grows (g g' : Target) : Prop := Stays (fun _ _ => True) g.passes g'.passes

/-- The targets of the technique stay, and so does its output target. -/
structure Technique.Grows (t t' : Technique) : Prop where
  output : t.output.Grows t'.output
  targets : Stays Target.Grows t.targets t'.targets

/-- The compositor keeps its name, and its techniques stay. -/
structure Compositor.Grows (c c' : Compositor) : Prop where
  name : c'.name = c.name
  techniques : Stays Technique.Grows c.techniques c'.techniques

/-- The handles go on to stand for their places, and the compositors stay. -/
structure Registry.Grows (r r' : Registry) : Prop where
  places : r.places <+: r'.places
  compositors : Stays Compositor.Grows r.compositors r'.compositors

theorem Target.grows_refl (g : Target) : g.Grows g := Stays.refl (fun _ => trivial) g.passes

theorem Target.grows_trans (g g' g'' : Target) (h : g.Grows g') (h' : g'.Grows g'') :
    g.Grows g'' :=
  Stays.trans (fun _ _ _ _ _ => trivial) h h'

theorem Technique.grows_refl (t : Technique) : t.Grows t :=
  ⟨t.output.grows_refl, .refl Target.grows_refl t.targets⟩

theorem Technique.grows_trans (t t' t'' : Technique) (h : t.Grows t') (h' : t'.Grows t'') :
    t.Grows t'' :=
  ⟨Target.grows_trans _ _ _ h.output h'.output, h.targets.trans Target.grows_trans h'.targets⟩

theorem Compositor.grows_refl (c : Compositor) : c.Grows c :=
  ⟨rfl, .refl Technique.grows_refl c.techniques⟩

theorem Compositor.grows_trans (c c' c'' : Compositor) (h : c.Grows c') (h' : c'.Grows c'') :
    c.Grows c'' :=
  ⟨h'.name.trans h.name, h.techniques.trans Technique.grows_trans h'.techniques⟩

/-- A technique grows if one of its targets does. -/
theorem Technique.grows_modifyTarget {f : Target → Target} (hf : ∀ g : Target, g.Grows (f g))
    (t : Technique) (slot : TargetSlot) : t.Grows (t.modifyTarget slot f) := by
  cases slot with
  | output => exact ⟨hf t.output, .refl Target.grows_refl t.targets⟩
  | named i => exact ⟨t.output.grows_refl, .modify Target.grows_refl hf t.targets i⟩

theorem Technique.Grows.target? {t t' : Technique} (h : t.Grows t') {slot : TargetSlot}
    {g : Target} (hg : t.target? slot = some g) :
    ∃ g', t'.target? slot = some g' ∧ g.Grows g' := by
  cases slot with
  | output =>
    cases hg
    exact ⟨_, rfl, h.output⟩
  | named i => exact h.targets i g hg

namespace Registry
variable {r r' r'' : Registry}

/-! ## Registries that grow -/

namespace Grows

theorem refl (r : Registry) : r.Grows r := ⟨List.prefix_rfl, .refl Compositor.grows_refl _⟩

theorem trans (h : r.Grows r') (h' : r'.Grows r'') : r.Grows r'' :=
  ⟨h.places.trans h'.places, h.compositors.trans Compositor.grows_trans h'.compositors⟩

/-- A handle goes on to stand for its place. -/
theorem place? (h : r.Grows r') {handle : Handle} {place : Place}
    (hplace : r.place? handle = some place) : r'.place? handle = some place := by
  obtain ⟨more, hmore⟩ := h.places
  have hget : r.places[handle.index]? = some place := hplace
  have hlt : handle.index < r.places.length := (List.getElem?_eq_some_iff.mp hget).1
  show r'.places[handle.index]? = some place
  rw [← hmore, List.getElem?_append_left hlt, hget]

theorem technique? (h : r.Grows r') {c t : Nat} {technique : Technique}
    (ht : r.technique? c t = some technique) :
    ∃ technique', r'.technique? c t = some technique' ∧ technique.Grows technique' := by
  obtain ⟨compositor, hcompositor, hin⟩ := Option.bind_eq_some_iff.mp ht
  obtain ⟨compositor', hcompositor', hgrows⟩ := h.compositors c compositor hcompositor
  obtain ⟨technique', hin', hgrows⟩ := hgrows.techniques t technique hin
  exact ⟨technique', Option.bind_eq_some_iff.mpr ⟨compositor', hcompositor', hin'⟩, hgrows⟩

theorem target? (h : r.Grows r') {c t : Nat} {slot : TargetSlot} {target : Target}
    (hg : r.target? c t slot = some target) :
    ∃ target', r'.target? c t slot = some target' ∧ target.Grows target' := by
  obtain ⟨technique, htechnique, hin⟩ := Option.bind_eq_some_iff.mp hg
  obtain ⟨technique', htechnique', hgrows⟩ := h.technique? htechnique
  obtain ⟨target', hin', hgrows⟩ := hgrows.target? hin
  exact ⟨target', Option.bind_eq_some_iff.mpr ⟨technique', htechnique', hin'⟩, hgrows⟩

end Grows

/-! ## Objects at places -/

/-- There is an object at the place. -/
def Holds (r : Registry) : Place → Prop
  | .compositor c => ∃ compositor, r.compositors[c]? = some compositor
  | .technique c t => ∃ technique, r.technique? c t = some technique
  | .target c t slot => ∃ target, r.target? c t slot = some target
  | .pass c t slot p =>
    ∃ target pass, r.target? c t slot = some target ∧ target.passes[p]? = some pass

/-- An object stays at its place. -/
theorem Grows.holds (h : r.Grows r') {place : Place} (hholds : r.Holds place) :
    r'.Holds place := by
  cases place with
  | compositor c =>
    obtain ⟨compositor, hcompositor⟩ := hholds
    obtain ⟨compositor', hcompositor', _⟩ := h.compositors c compositor hcompositor
    exact ⟨compositor', hcompositor'⟩
  | technique c t =>
    obtain ⟨technique, htechnique⟩ := hholds
    obtain ⟨technique', htechnique', _⟩ := h.technique? htechnique
    exact ⟨technique', htechnique'⟩
  | target c t slot =>
    obtain ⟨target, htarget⟩ := hholds
    obtain ⟨target', htarget', _⟩ := h.target? htarget
    exact ⟨target', htarget'⟩
  | pass c t slot p =>
    obtain ⟨target, pass, htarget, hpass⟩ := hholds
    obtain ⟨target', htarget', hgrows⟩ := h.target? htarget
    obtain ⟨pass', hpass', _⟩ := hgrows p pass hpass
    exact ⟨target', pass', htarget', hpass'⟩

/-- There is an object at each place that a handle stands for. -/
def Sound (r : Registry) : Prop := ∀ handle place, r.place? handle = some place → r.Holds place

/-! ## Changes -/

section
variable (r) (c t : Nat)

theorem grows_modifyCompositor {f : Compositor → Compositor}
    (hf : ∀ c : Compositor, c.Grows (f c)) : r.Grows (r.modifyCompositor c f) :=
  ⟨List.prefix_rfl, .modify Compositor.grows_refl hf r.compositors c⟩

theorem grows_modifyTechnique {f : Technique → Technique}
    (hf : ∀ t : Technique, t.Grows (f t)) : r.Grows (r.modifyTechnique c t f) :=
  r.grows_modifyCompositor c fun _ => ⟨rfl, .modify Technique.grows_refl hf _ t⟩

theorem grows_modifyTarget (slot : TargetSlot) {f : Target → Target}
    (hf : ∀ g : Target, g.Grows (f g)) : r.Grows (r.modifyTarget c t slot f) :=
  r.grows_modifyTechnique c t fun technique => technique.grows_modifyTarget hf slot

theorem grows_modifyPass (slot : TargetSlot) (p : Nat) (f : Pass → Pass) :
    r.Grows (r.modifyPass c t slot p f) :=
  r.grows_modifyTarget c t slot fun _ => .modify (fun _ => trivial) (fun _ => trivial) _ p

theorem grows_handOut (place : Place) : r.Grows (r.handOut place).2 :=
  ⟨⟨[place], rfl⟩, .refl Compositor.grows_refl _⟩

end

@[simp] theorem technique?_modifyTechnique (r : Registry) (c t : Nat)
    (f : Technique → Technique) :
    (r.modifyTechnique c t f).technique? c t = (r.technique? c t).map f := by
  simp only [technique?, modifyTechnique, modifyCompositor, List.getElem?_modify, if_true]
  cases r.compositors[c]? with
  | none => rfl
  | some compositor => simp

@[simp] theorem target?_modifyTarget (r : Registry) (c t : Nat) (slot : TargetSlot)
    (f : Target → Target) :
    (r.modifyTarget c t slot f).target? c t slot = (r.target? c t slot).map f := by
  simp only [target?, modifyTarget, technique?_modifyTechnique]
  cases r.technique? c t with
  | none => rfl
  | some technique =>
    cases slot with
    | output => rfl
    | named i => simp [Technique.modifyTarget, Technique.target?]

/-! ## Adding -/

/-- The places a child of a kind can have, given that of its parent. -/
inductive IsChild : ChildKind → Place → Place → Prop where
  | technique {c : Nat} (t : Nat) : IsChild .technique (.compositor c) (.technique c t)
  | target {c t : Nat} (i : Nat) : IsChild .target (.technique c t) (.target c t (.named i))
  | outputTarget {c t : Nat} : IsChild .outputTarget (.technique c t) (.target c t .output)
  | pass {c t : Nat} {slot : TargetSlot} (p : Nat) :
    IsChild .pass (.target c t slot) (.pass c t slot p)

/-- A registry that grew by handles for objects at some places. -/
structure Adds (r : Registry) (added : List Place) (r' : Registry) : Prop where
  grows : r.Grows r'
  places : r'.places = r.places ++ added
  holds : ∀ place ∈ added, r'.Holds place

/-- The handle for a place that was added. -/
theorem Adds.place? {place : Place} (h : r.Adds [place] r') :
    r'.place? ⟨r.places.length⟩ = some place := by
  show r'.places[r.places.length]? = some place
  rw [h.places, List.getElem?_append_right (Nat.le_refl _), Nat.sub_self]
  rfl

theorem Adds.refl (r : Registry) : r.Adds [] r :=
  ⟨.refl r, (List.append_nil _).symm, by simp⟩

/-- What was added stays. -/
theorem Adds.trans {added added' : List Place} (h : r.Adds added r') (h' : r'.Adds added' r'') :
    r.Adds (added ++ added') r'' := by
  refine ⟨h.grows.trans h'.grows, ?_, ?_⟩
  · rw [h'.places, h.places, List.append_assoc]
  · intro place hplace
    rcases List.mem_append.mp hplace with hplace | hplace
    · exact h'.grows.holds (h.holds place hplace)
    · exact h'.holds place hplace

/-- Handing out a handle for the place of an object. -/
theorem Grows.adds_handOut (h : r.Grows r') (hplaces : r'.places = r.places) {place : Place}
    (hholds : r'.Holds place) :
    r.Adds [place] (r'.handOut place).2 ∧ (r'.handOut place).1 = ⟨r.places.length⟩ := by
  have hgrows := r'.grows_handOut place
  refine ⟨⟨h.trans hgrows, ?_, ?_⟩, ?_⟩
  · show r'.places ++ [place] = r.places ++ [place]
    rw [hplaces]
  · intro other hother
    rw [List.mem_singleton.mp hother]
    exact hgrows.holds hholds
  · show Handle.mk r'.places.length = ⟨r.places.length⟩
    rw [hplaces]

/-- There is still an object at each place that a handle stands for. -/
theorem Sound.adds {added : List Place} (h : r.Sound) (hadds : r.Adds added r') : r'.Sound := by
  intro handle place hplace
  have hget : r'.places[handle.index]? = some place := hplace
  rw [hadds.places] at hget
  rcases List.mem_append.mp (List.mem_of_getElem? hget) with hold | hnew
  · obtain ⟨i, hi⟩ := List.mem_iff_getElem?.mp hold
    exact hadds.grows.holds (h ⟨i⟩ place hi)
  · exact hadds.holds place hnew

/-! ## Operations -/

/-- A compositor is added, unless its name is taken. -/
theorem createCompositor_cases (r : Registry) (name group : String) :
    (r.createCompositor name group = (.error (.duplicateName .compositor name), r) ∧
      ∃ compositor ∈ r.compositors, compositor.name = name) ∨
    (∃ r', r.createCompositor name group = (.ok ⟨r.places.length⟩, r') ∧
      r.Adds [.compositor r.compositors.length] r' ∧
      r'.compositors = r.compositors ++ [⟨name, group, []⟩]) := by
  unfold createCompositor
  by_cases htaken : (r.find? name).isSome
  · refine .inl ⟨if_pos htaken, ?_⟩
    obtain ⟨compositor, hfound⟩ := Option.isSome_iff_exists.mp htaken
    exact ⟨compositor, List.mem_of_find?_eq_some hfound, by simpa using List.find?_some hfound⟩
  · let added : Registry := { r with compositors := r.compositors ++ [⟨name, group, []⟩] }
    have hgrows : r.Grows added :=
      ⟨List.prefix_rfl, .append Compositor.grows_refl r.compositors _⟩
    have hholds : added.Holds (.compositor r.compositors.length) :=
      ⟨⟨name, group, []⟩, by simp [added]⟩
    obtain ⟨hadds, hhandle⟩ := hgrows.adds_handOut rfl hholds
    refine .inr ⟨(added.handOut (.compositor r.compositors.length)).2, ?_, hadds, rfl⟩
    rw [if_neg htaken, ← hhandle]

/-- A child is added to an object, or the object cannot own it. -/
theorem addChild_cases {parent : Place} (hholds : r.Holds parent) (kind : ChildKind) :
    (∃ child r', r.addChild parent kind = .ok (child, r') ∧ IsChild kind parent child ∧
      r.Grows r' ∧ r'.places = r.places ∧ r'.Holds child) ∨
    (r.addChild parent kind = .error (.invalidChild parent.kind kind) ∧
      ∀ child, ¬ IsChild kind parent child) := by
  cases parent with
  | compositor c =>
    cases kind with
    | technique =>
      refine .inl ⟨_, _, rfl, .technique _, ?_, rfl, ?_⟩
      · exact r.grows_modifyCompositor c fun _ => ⟨rfl, .append Technique.grows_refl _ _⟩
      · obtain ⟨compositor, hcompositor⟩ := hholds
        simp [Holds, Registry.technique?, modifyCompositor, hcompositor]
    | _ => exact .inr ⟨rfl, nofun⟩
  | technique c t =>
    obtain ⟨technique, htechnique⟩ := hholds
    cases kind with
    | target =>
      refine .inl ⟨_, _, rfl, .target _, ?_, rfl, ?_⟩
      · exact r.grows_modifyTechnique c t fun technique =>
          ⟨technique.output.grows_refl, .append Target.grows_refl _ _⟩
      · simp [Holds, Registry.target?, htechnique, Technique.target?]
    | outputTarget =>
      refine .inl ⟨_, _, rfl, .outputTarget, .refl r, rfl, technique.output, ?_⟩
      simp [Registry.target?, htechnique, Technique.target?]
    | _ => exact .inr ⟨rfl, nofun⟩
  | target c t slot =>
    obtain ⟨target, htarget⟩ := hholds
    cases kind with
    | pass =>
      refine .inl ⟨_, _, rfl, .pass _, ?_, rfl, ?_⟩
      · exact r.grows_modifyTarget c t slot fun _ => .append (fun _ => trivial) _ _
      · simp [Holds, htarget]
    | _ => exact .inr ⟨rfl, nofun⟩
  | pass c t slot p => cases kind <;> exact .inr ⟨rfl, nofun⟩

/-- A child of an object is created, or the object cannot own it. -/
theorem createChild_cases {parent : Handle} {place : Place} (hplace : r.place? parent = some place)
    (hholds : r.Holds place) (kind : ChildKind) :
    (∃ child r', r.createChild parent kind = (.ok ⟨r.places.length⟩, r') ∧
      IsChild kind place child ∧ r.Adds [child] r') ∨
    (r.createChild parent kind = (.error (.invalidChild place.kind kind), r) ∧
      ∀ child, ¬ IsChild kind place child) := by
  rcases addChild_cases hholds kind with
    ⟨child, added, hadd, hchild, hgrows, hplaces, hholds⟩ | ⟨hadd, hno⟩
  · obtain ⟨hadds, hhandle⟩ := hgrows.adds_handOut hplaces hholds
    refine .inl ⟨child, (added.handOut child).2, ?_, hchild, hadds⟩
    rw [← hhandle]
    simp only [createChild, hplace, hadd]
  · refine .inr ⟨?_, hno⟩
    simp only [createChild, hplace, hadd]

/-- The attributes an object at a place has. -/
inductive Takes : Place → Attribute → Prop where
  | texture {c t : Nat} (texture : Texture) : Takes (.technique c t) (.texture texture)
  | target {c t : Nat} {slot : TargetSlot} (attr : TargetAttribute) :
    Takes (.target c t slot) (.target attr)
  | pass {c t : Nat} {slot : TargetSlot} {p : Nat} (attr : PassAttribute) :
    Takes (.pass c t slot p) (.pass attr)

/-- An attribute of an object is set, or it is a texture whose name is taken, or the object has
    no such attribute. -/
theorem setAttribute_cases {object : Handle} {place : Place}
    (hplace : r.place? object = some place) (attr : Attribute) :
    (Takes place attr ∧ ∃ r', r.setAttribute object attr = (.ok (), r') ∧ r.Adds [] r') ∨
    (∃ texture, attr = .texture texture ∧
      r.setAttribute object attr = (.error (.duplicateName .texture texture.name), r)) ∨
    (r.setAttribute object attr = (.error (.invalidAttribute attr place.kind), r) ∧
      ¬ Takes place attr) := by
  unfold setAttribute
  rw [hplace]
  cases place with
  | compositor c => exact .inr (.inr ⟨rfl, nofun⟩)
  | technique c t =>
    cases attr with
    | texture texture =>
      by_cases htaken : (((r.technique? c t).map (·.textures)).getD []).any
          (·.name == texture.name) = true
      · exact .inr (.inl ⟨texture, rfl, if_pos htaken⟩)
      · refine .inl ⟨.texture texture, _, if_neg htaken, ?_, ?_, nofun⟩
        · exact r.grows_modifyTechnique c t fun technique =>
            ⟨technique.output.grows_refl, .refl Target.grows_refl _⟩
        · exact (List.append_nil _).symm
    | _ => exact .inr (.inr ⟨rfl, nofun⟩)
  | target c t slot =>
    cases attr with
    | target attr =>
      refine .inl ⟨.target attr, _, rfl, ?_, (List.append_nil _).symm, nofun⟩
      refine r.grows_modifyTarget c t slot fun g => ?_
      have hpasses : (g.set attr).passes = g.passes := by cases attr <;> rfl
      unfold Target.Grows
      rw [hpasses]
      exact .refl (fun _ => trivial) _
    | _ => exact .inr (.inr ⟨rfl, nofun⟩)
  | pass c t slot p =>
    cases attr with
    | pass attr =>
      exact .inl ⟨.pass attr, _, rfl, r.grows_modifyPass c t slot p _, (List.append_nil _).symm,
        nofun⟩
    | _ => exact .inr (.inr ⟨rfl, nofun⟩)

/-! ## Registries that calls lead to -/

/-- The registries that operations, granted or not, lead to from one without compositors. -/
inductive Reachable : Registry → Prop where
  | empty (defaults : Defaults) : Reachable (.empty defaults)
  | createCompositor {r : Registry} (name group : String) (h : Reachable r) :
    Reachable (r.createCompositor name group).2
  | createChild {r : Registry} (parent : Handle) (kind : ChildKind) (h : Reachable r) :
    Reachable (r.createChild parent kind).2
  | setAttribute {r : Registry} (object : Handle) (attr : Attribute) (h : Reachable r) :
    Reachable (r.setAttribute object attr).2

/-- A registry that operations lead to has an object at each place it has handed out. -/
theorem Reachable.sound (h : r.Reachable) : r.Sound := by
  induction h with
  | empty defaults =>
    intro handle place hplace
    have hnone : (none : Option Place) = some place := hplace
    cases hnone
  | createCompositor name group _ ih =>
    rename_i r _
    rcases r.createCompositor_cases name group with ⟨hcreate, _⟩ | ⟨r', hcreate, hadds, _⟩
    · rw [hcreate]
      exact ih
    · rw [hcreate]
      exact ih.adds hadds
  | createChild parent kind _ ih =>
    rename_i r _
    cases hplace : r.place? parent with
    | none =>
      simp only [Registry.createChild, hplace]
      exact ih
    | some place =>
      rcases createChild_cases hplace (ih _ _ hplace) kind with
        ⟨child, r', hcreate, _, hadds⟩ | ⟨hcreate, _⟩
      · rw [hcreate]
        exact ih.adds hadds
      · rw [hcreate]
        exact ih
  | setAttribute object attr _ ih =>
    rename_i r _
    cases hplace : r.place? object with
    | none =>
      simp only [Registry.setAttribute, hplace]
      exact ih
    | some place =>
      rcases setAttribute_cases hplace attr with
        ⟨_, r', hset, hadds⟩ | ⟨_, _, hset⟩ | ⟨hset, _⟩
      · rw [hset]
        exact ih.adds hadds
      · rw [hset]
        exact ih
      · rw [hset]
        exact ih

end Registry
end Compositing
