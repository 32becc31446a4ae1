import Compositing.Proofs.Scene.Names
import Compositing.Proofs.Scene.Objects

/-! # Registries as arenas

    A registry is asked for compositors, children and attributes in any order,
    with any handles.  A call is refused for one of six reasons, and then
    nothing is changed; or it adds an object and hands out a handle for it, or
    it changes the object that it is about and no other.

    So a handle that was once handed out goes on to stand for the same object,
    at the same place, whatever else is asked for. -/

namespace Compositing.Registry

/-! ## Calls -/

/-- What a registry can be asked for. -/
inductive Call where
  | createCompositor (name group : String)
  | createChild (parent : Handle) (kind : ChildKind)
  | setAttribute (object : Handle) (attr : Attribute)

/-- The answer to a call, with a handle if an object was created, and the registry after it. -/
def call (r : Registry) : Call → Except BuilderError (Option Handle) × Registry
  | .createCompositor name group =>
    let (answer, r') := r.createCompositor name group
    (answer.map some, r')
  | .createChild parent kind =>
    let (answer, r') := r.createChild parent kind
    (answer.map some, r')
  | .setAttribute object attr =>
    let (answer, r') := r.setAttribute object attr
    (answer.map fun _ => none, r')

/-- The registry after calls. -/
def run (r : Registry) (calls : List Call) : Registry := calls.foldl (fun r c => (r.call c).2) r

/-- The handle that an answer hands out. -/
def handedOut : Except BuilderError (Option Handle) → List Handle
  | .ok (some handle) => [handle]
  | _ => []

/-- The handles that are handed out in the course of calls. -/
def handed (r : Registry) : List Call → List Handle
  | [] => []
  | c :: calls => handedOut (r.call c).1 ++ (r.call c).2.handed calls

/-- The attribute that a call is granted for the object at a place. -/
def grants (r : Registry) (place : Place) (c : Call) : List Attribute :=
  match c, (r.call c).1 with
  | .setAttribute object attr, .ok _ => if r.place? object = some place then [attr] else []
  | _, _ => []

/-- The attributes that are granted for the object at a place in the course of calls. -/
def granted (r : Registry) (place : Place) : List Call → List Attribute
  | [] => []
  | c :: calls => r.grants place c ++ (r.call c).2.granted place calls

/-! ## Answers -/

/-- Why a call is refused: a name is taken, a handle was not handed out, the parent cannot own such
    a child, or the object has no such attribute. -/
inductive Refuses (r : Registry) : Call → BuilderError → Prop where
  | nameTaken {name group : String} (h : name ∈ r.names) :
    Refuses r (.createCompositor name group) (.duplicateName .compositor name)
  | unknownParent {parent : Handle} {kind : ChildKind} (h : r.place? parent = none) :
    Refuses r (.createChild parent kind) (.unknownHandle parent)
  | notOwned {parent : Handle} {kind : ChildKind} {place : Place}
      (hplace : r.place? parent = some place) (h : ∀ child, ¬ IsChild kind place child) :
    Refuses r (.createChild parent kind) (.invalidChild place.kind kind)
  | unknownObject {object : Handle} {attr : Attribute} (h : r.place? object = none) :
    Refuses r (.setAttribute object attr) (.unknownHandle object)
  | notTaken {object : Handle} {attr : Attribute} {place : Place}
      (hplace : r.place? object = some place) (h : ¬ Takes place attr) :
    Refuses r (.setAttribute object attr) (.invalidAttribute attr place.kind)
  | textureTaken {object : Handle} {texture : Texture} {c t : Nat} {technique : Technique}
      (hplace : r.place? object = some (.technique c t))
      (htechnique : r.technique? c t = some technique)
      (h : ∃ other ∈ technique.textures, other.name = texture.name) :
    Refuses r (.setAttribute object (.texture texture)) (.duplicateName .texture texture.name)

/-- The second registry is the first with a handle handed out for a place, and with new objects
    unless there is one at the place already. -/
structure HandsOut (r : Registry) (place : Place) (r' : Registry) : Prop where
  makes : r.Makes place r'
  places : r'.places = r.places ++ [place]
  object : ∃ object, r'.object? place = some object

/-- What becomes of a call: the answer and the registry after it. -/
inductive Answers (r : Registry) :
    Call → Except BuilderError (Option Handle) → Registry → Prop where
  | refused {c : Call} {error : BuilderError} (h : r.Refuses c error) :
    Answers r c (.error error) r
  | compositorAdded {name group : String} {r' : Registry} (hname : name ∉ r.names)
      (h : r.HandsOut (.compositor r.compositors.length) r')
      (hobject : r'.object? (.compositor r.compositors.length) = some (.compositor name group))
      (hnames : r'.names = r.names ++ [name]) :
    Answers r (.createCompositor name group) (.ok (some ⟨r.places.length⟩)) r'
  | childAdded {parent : Handle} {kind : ChildKind} {place child : Place} {r' : Registry}
      (hplace : r.place? parent = some place) (hchild : IsChild kind place child)
      (h : r.HandsOut child r') (hnames : r'.names = r.names) :
    Answers r (.createChild parent kind) (.ok (some ⟨r.places.length⟩)) r'
  | attributeSet {object : Handle} {attr : Attribute} {place : Place} {r' : Registry}
      (hplace : r.place? object = some place) (htakes : Takes place attr)
      (h : r.Changes place attr r') (hnames : r'.names = r.names) :
    Answers r (.setAttribute object attr) (.ok none) r'

variable {r r' : Registry}

/-- Handing out a handle leaves the objects as they are. -/
theorem Makes.handOut {place : Place} (h : r.Makes place r') (hplaces : r'.places = r.places)
    (hobject : ∃ object, r'.object? place = some object) :
    r.HandsOut place (r'.handOut place).2 := by
  have hsame : ∀ other, (r'.handOut place).2.object? other = r'.object? other := by
    intro other
    cases other <;> rfl
  refine ⟨⟨h.defaults, ?_, ?_⟩, ?_, ?_⟩
  · intro other hother
    rw [hsame]
    exact h.new other hother
  · intro other hother
    rw [hsame]
    exact h.others other hother
  · show r'.places ++ [place] = r.places ++ [place]
    rw [hplaces]
  · rw [hsame]
    exact hobject

/-- A call that is refused changes nothing. -/
theorem Refuses.call (hsound : r.Sound) {c : Call} {error : BuilderError}
    (h : r.Refuses c error) : r.call c = (.error error, r) := by
  cases h with
  | nameTaken h =>
    have htaken := (r.find?_isSome_iff _).mpr h
    simp only [Registry.call, createCompositor, if_pos htaken]
    rfl
  | unknownParent h =>
    simp only [Registry.call, createChild, h]
    rfl
  | @notOwned parent kind place hplace h =>
    rcases createChild_cases hplace (hsound _ _ hplace) kind with
      ⟨child, _, _, hchild, _⟩ | ⟨hcreate, _⟩
    · exact absurd hchild (h child)
    · simp only [Registry.call, hcreate]
      rfl
  | unknownObject h =>
    simp only [Registry.call, setAttribute, h]
    rfl
  | @notTaken object attr place hplace h =>
    simp only [Registry.call, setAttribute, hplace]
    cases place with
    | compositor c => rfl
    | technique c t => cases attr with
      | texture texture => exact absurd (.texture texture) h
      | _ => rfl
    | target c t slot => cases attr with
      | target attr => exact absurd (.target attr) h
      | _ => rfl
    | pass c t slot p => cases attr with
      | pass attr => exact absurd (.pass attr) h
      | _ => rfl
  | @textureTaken object texture c t technique hplace htechnique h =>
    obtain ⟨other, hmem, hname⟩ := h
    have htaken : technique.textures.any (·.name == texture.name) = true :=
      List.any_eq_true.mpr ⟨other, hmem, beq_iff_eq.mpr hname⟩
    simp only [Registry.call, setAttribute, hplace, htechnique]
    simp only [Option.map_some, Option.getD_some]
    rw [if_pos htaken]
    rfl

theorem Refuses.answers (hsound : r.Sound) {c : Call} {error : BuilderError}
    (h : r.Refuses c error) : r.Answers c (r.call c).1 (r.call c).2 := by
  rw [h.call hsound]
  exact .refused h

/-- A compositor is asked for. -/
theorem answers_createCompositor (hsound : r.Sound) (name group : String) :
    r.Answers (.createCompositor name group) (r.call (.createCompositor name group)).1
      (r.call (.createCompositor name group)).2 := by
  by_cases htaken : name ∈ r.names
  · exact Refuses.answers hsound (.nameTaken htaken)
  · have hnames : (r.createCompositor name group).2.names = r.names ++ [name] := by
      rw [names_createCompositor, if_neg htaken]
    have hfound : ¬ (r.find? name).isSome := mt (r.find?_isSome_iff name).mp htaken
    simp only [createCompositor, if_neg hfound] at hnames
    simp only [call, createCompositor, if_neg hfound]
    have hmakes := r.makes_compositor name group
    have hout := hmakes.handOut rfl (hmakes.object (.head _))
    exact .compositorAdded htaken hout (by simp [object?, handOut]) hnames

/-- A child that an object can own is made, or is its output target. -/
theorem addChild_makes {parent child : Place} {kind : ChildKind} {added : Registry}
    (hholds : r.Holds parent) (h : r.addChild parent kind = .ok (child, added)) :
    IsChild kind parent child ∧ r.Makes child added ∧ added.places = r.places ∧
      ∃ object, added.object? child = some object := by
  -- the index of a child is the number of those before it, as the parent is there
  cases parent with
  | compositor c =>
    obtain ⟨compositor, hcompositor⟩ := hholds
    cases kind with
    | technique =>
      have hmakes := makes_technique hcompositor
      simp only [addChild, hcompositor, Option.map_some, Option.getD_some] at h
      cases h
      exact ⟨.technique _, hmakes, rfl, hmakes.object (.head _)⟩
    | _ => cases h
  | technique c t =>
    obtain ⟨technique, htechnique⟩ := hholds
    cases kind with
    | target =>
      have hmakes := makes_target htechnique
      simp only [addChild, htechnique, Option.map_some, Option.getD_some] at h
      cases h
      exact ⟨.target _, hmakes, rfl, hmakes.object (.head _)⟩
    | outputTarget =>
      have hmakes : r.Makes (.target c t .output) r :=
        ⟨rfl, by simp [made], fun _ _ => rfl⟩
      cases h
      refine ⟨.outputTarget, hmakes, rfl, .target technique.output.bare, ?_⟩
      simp [object?, target?, htechnique, Technique.target?]
    | _ => cases h
  | target c t slot =>
    obtain ⟨target, htarget⟩ := hholds
    cases kind with
    | pass =>
      have hmakes := makes_pass htarget
      simp only [addChild, htarget, Option.map_some, Option.getD_some] at h
      cases h
      exact ⟨.pass _, hmakes, rfl, hmakes.object (.head _)⟩
    | _ => cases h
  | pass c t slot p => cases kind <;> cases h

/-- A child of an object is asked for. -/
theorem answers_createChild (hsound : r.Sound) (parent : Handle) (kind : ChildKind) :
    r.Answers (.createChild parent kind) (r.call (.createChild parent kind)).1
      (r.call (.createChild parent kind)).2 := by
  have hnames := r.names_createChild parent kind
  cases hplace : r.place? parent with
  | none => exact Refuses.answers hsound (.unknownParent hplace)
  | some place =>
    have hholds := hsound parent place hplace
    rcases addChild_cases hholds kind with ⟨child, added, hadd, _⟩ | ⟨_, hno⟩
    · obtain ⟨hchild, hmakes, hplaces, hobject⟩ := addChild_makes hholds hadd
      simp only [createChild, hplace, hadd] at hnames
      have hhandle : (added.handOut child).1 = ⟨r.places.length⟩ := by
        show Handle.mk added.places.length = ⟨r.places.length⟩
        rw [hplaces]
      simp only [call, createChild, hplace, hadd]
      show r.Answers (.createChild parent kind) (.ok (some (added.handOut child).1))
        (added.handOut child).2
      rw [hhandle]
      exact .childAdded hplace hchild (hmakes.handOut hplaces hobject) hnames
    · exact Refuses.answers hsound (.notOwned hplace hno)

/-- A technique is to be given a texture. -/
theorem answers_texture (hsound : r.Sound) {object : Handle} {c t : Nat} {technique : Technique}
    (hplace : r.place? object = some (.technique c t))
    (htechnique : r.technique? c t = some technique) (texture : Texture) :
    r.Answers (.setAttribute object (.texture texture))
      (r.call (.setAttribute object (.texture texture))).1
      (r.call (.setAttribute object (.texture texture))).2 := by
  by_cases htaken : ∃ other ∈ technique.textures, other.name = texture.name
  · exact Refuses.answers hsound (.textureTaken hplace htechnique htaken)
  · have hnew : ∀ other ∈ technique.textures, other.name ≠ texture.name :=
      fun other hmem hname => htaken ⟨other, hmem, hname⟩
    have hany : ¬ (technique.textures.any (·.name == texture.name)) = true := by
      simpa using hnew
    have hnames := r.names_setAttribute object (.texture texture)
    simp only [setAttribute, hplace, htechnique, Option.map_some, Option.getD_some,
      if_neg hany] at hnames
    simp only [call, setAttribute, hplace, htechnique, Option.map_some, Option.getD_some,
      if_neg hany]
    exact .attributeSet hplace (.texture texture) (changes_texture htechnique hnew) hnames

/-- An attribute of an object is to be set. -/
theorem answers_setAttribute (hsound : r.Sound) (object : Handle) (attr : Attribute) :
    r.Answers (.setAttribute object attr) (r.call (.setAttribute object attr)).1
      (r.call (.setAttribute object attr)).2 := by
  have hnames := r.names_setAttribute object attr
  cases hplace : r.place? object with
  | none => exact Refuses.answers hsound (.unknownObject hplace)
  | some place =>
    have hholds := hsound object place hplace
    by_cases htakes : Takes place attr
    · -- besides a texture, what an object takes is never refused
      cases htakes with
      | texture texture =>
        obtain ⟨technique, htechnique⟩ := hholds
        exact answers_texture hsound hplace htechnique texture
      | target attr =>
        obtain ⟨target, htarget⟩ := hholds
        simp only [setAttribute, hplace] at hnames
        simp only [call, setAttribute, hplace]
        exact .attributeSet hplace (.target attr) (changes_target htarget attr) hnames
      | @pass c t slot p attr =>
        obtain ⟨target, pass, htarget, hin⟩ := hholds
        have hpass : r.pass? c t slot p = some pass := by
          rw [pass?, htarget]
          exact hin
        simp only [setAttribute, hplace] at hnames
        simp only [call, setAttribute, hplace]
        exact .attributeSet hplace (.pass attr) (changes_pass hpass attr) hnames
    · exact Refuses.answers hsound (.notTaken hplace htakes)

/-- What becomes of any call. -/
theorem answers (hsound : r.Sound) (c : Call) : r.Answers c (r.call c).1 (r.call c).2 := by
  cases c with
  | createCompositor name group => exact answers_createCompositor hsound name group
  | createChild parent kind => exact answers_createChild hsound parent kind
  | setAttribute object attr => exact answers_setAttribute hsound object attr

/-- An error is the answer exactly if there is a reason for it. -/
theorem call_eq_error_iff (hsound : r.Sound) (c : Call) (error : BuilderError) :
    (r.call c).1 = .error error ↔ r.Refuses c error := by
  constructor
  · intro h
    have hanswers := answers hsound c
    rw [h] at hanswers
    generalize (r.call c).2 = r' at hanswers
    cases hanswers with
    | refused h => exact h
  · intro h
    rw [h.call hsound]

/-! ## What a call preserves -/

/-- A registry whose handles stand for objects, whose objects are proper, whose compositors differ
    in name, and in which two handles may share an output target but no other object. -/
structure IsArena (r : Registry) : Prop where
  sound : r.Sound
  proper : ∀ place object, r.object? place = some object → object.Proper
  names : r.names.Nodup
  apart : ∀ handle handle' place, r.place? handle = some place → r.place? handle' = some place →
    handle = handle' ∨ ∃ c t, place = .target c t .output

/-- The handle that is handed out, or one that was handed out before. -/
theorem HandsOut.place?_eq_some_iff {place other : Place} (h : r.HandsOut place r')
    (handle : Handle) : r'.place? handle = some other ↔
      r.place? handle = some other ∨ (handle = ⟨r.places.length⟩ ∧ other = place) := by
  obtain ⟨index⟩ := handle
  simp only [place?, h.places, getElem?_append_singleton, Handle.mk.injEq]
  by_cases hindex : index = r.places.length
  · simp [hindex, eq_comm]
  · simp [hindex]

/-- There is an object at the place of a handle that is handed out. -/
theorem Sound.handsOut {place : Place} (h : r.Sound) (hout : r.HandsOut place r') : r'.Sound := by
  intro handle other hother
  rw [holds_iff_object?]
  rcases (hout.place?_eq_some_iff handle).mp hother with hold | ⟨_, rfl⟩
  · obtain ⟨object, hobject⟩ := holds_iff_object?.mp (h handle other hold)
    exact ⟨object, hout.makes.keeps hobject⟩
  · exact hout.object

/-- Handing out a handle preserves the handles and the objects. -/
theorem IsArena.handsOut {place : Place} (h : r.IsArena) (hout : r.HandsOut place r')
    (hnames : r'.names.Nodup) : r'.IsArena where
  sound := h.sound.handsOut hout
  proper := by
    intro other object hobject
    by_cases hmade : other ∈ made place
    · obtain ⟨_, new, hnew, hproper⟩ := hout.makes.new other hmade
      rw [hobject] at hnew
      cases hnew
      exact hproper.proper
    · rw [hout.makes.others other hmade] at hobject
      exact h.proper other object hobject
  names := hnames
  apart := by
    intro handle handle' other hother hother'
    -- a handle that was handed out before cannot stand for an object that is new
    have hnew : ∀ old, r.place? old = some place → ∃ c t, place = .target c t .output := by
      intro old hold
      obtain ⟨object, hobject⟩ := holds_iff_object?.mp (h.sound old place hold)
      refine eq_output_of_not_mem_made fun hmade => ?_
      rw [(hout.makes.new place hmade).1] at hobject
      cases hobject
    rcases (hout.place?_eq_some_iff handle).mp hother with hold | ⟨hhandle, hplace⟩
    · rcases (hout.place?_eq_some_iff handle').mp hother' with hold' | ⟨_, hplace'⟩
      · exact h.apart handle handle' other hold hold'
      · subst hplace'
        exact .inr (hnew handle hold)
    · subst hplace
      rcases (hout.place?_eq_some_iff handle').mp hother' with hold' | ⟨hhandle', _⟩
      · exact .inr (hnew handle' hold')
      · exact .inl (hhandle.trans hhandle'.symm)

/-- A handle stands for the same place after an attribute is set. -/
theorem Changes.place? {place : Place} {attr : Attribute} (h : r.Changes place attr r')
    (handle : Handle) : r'.place? handle = r.place? handle := by
  rw [Registry.place?, h.places, Registry.place?]

/-- Setting an attribute preserves the handles and the objects. -/
theorem IsArena.changes {place : Place} {attr : Attribute} (h : r.IsArena)
    (hchanges : r.Changes place attr r') (hnames : r'.names = r.names) : r'.IsArena := by
  obtain ⟨old, hold, hset, hchangesTo⟩ := hchanges.object
  refine ⟨?_, ?_, ?_, ?_⟩
  · intro handle other hother
    rw [hchanges.place?] at hother
    rw [holds_iff_object?]
    by_cases hsame : other = place
    · rw [hsame]
      exact ⟨_, hset⟩
    · rw [hchanges.others other hsame]
      exact holds_iff_object?.mp (h.sound handle other hother)
  · intro other object hobject
    by_cases hsame : other = place
    · rw [hsame, hset] at hobject
      cases hobject
      exact (h.proper place old hold).set hchangesTo
    · rw [hchanges.others other hsame] at hobject
      exact h.proper other object hobject
  · rw [hnames]
    exact h.names
  · intro handle handle' other hother hother'
    rw [hchanges.place?] at hother hother'
    exact h.apart handle handle' other hother hother'

theorem IsArena.answered {c : Call} {answer : Except BuilderError (Option Handle)}
    (h : r.IsArena) (hanswers : r.Answers c answer r') : r'.IsArena := by
  cases hanswers with
  | refused _ => exact h
  | compositorAdded hname hout _ hnames =>
    refine h.handsOut hout ?_
    rw [hnames]
    exact nodup_append_singleton h.names hname
  | childAdded _ _ hout hnames =>
    refine h.handsOut hout ?_
    rw [hnames]
    exact h.names
  | attributeSet _ _ hchanges hnames => exact h.changes hchanges hnames

/-- A handle goes on to stand for its place. -/
theorem Answers.place? {c : Call} {answer : Except BuilderError (Option Handle)}
    (h : r.Answers c answer r') {handle : Handle} {place : Place}
    (hplace : r.place? handle = some place) : r'.place? handle = some place := by
  cases h with
  | refused _ => exact hplace
  | compositorAdded _ hout _ _ | childAdded _ _ hout _ =>
    exact (hout.place?_eq_some_iff handle).mpr (.inl hplace)
  | attributeSet _ _ hchanges _ =>
    rw [hchanges.place?]
    exact hplace

/-- A handle stands for a place if it did before, or if it is handed out. -/
theorem Answers.place?_iff {c : Call} {answer : Except BuilderError (Option Handle)}
    (h : r.Answers c answer r') {handle : Handle} :
    (∃ place, r'.place? handle = some place) ↔
      (∃ place, r.place? handle = some place) ∨ handle ∈ handedOut answer := by
  cases h with
  | refused _ => simp [handedOut]
  | compositorAdded _ hout _ _ | childAdded _ _ hout _ =>
    simp [hout.place?_eq_some_iff, handedOut, exists_or]
  | attributeSet _ _ hchanges _ => simp [hchanges.place?, handedOut]

/-- An object stays as it is, but for an attribute that is granted for it. -/
theorem object?_call (hsound : r.Sound) (c : Call) {place : Place} {object : SceneObject}
    (hobject : r.object? place = some object) :
    (r.call c).2.object? place = some ((r.grants place c).foldl SceneObject.set object) := by
  have hanswers := answers hsound c
  unfold grants
  generalize (r.call c).1 = answer at hanswers ⊢
  generalize (r.call c).2 = r' at hanswers ⊢
  cases hanswers with
  | refused _ => cases c <;> exact hobject
  | compositorAdded _ hout _ _ | childAdded _ _ hout _ => exact hout.makes.keeps hobject
  | @attributeSet _ attr place' _ hplace _ hchanges _ =>
    -- the attribute is granted for this object, or for one elsewhere
    by_cases hsame : place = place'
    · subst hsame
      obtain ⟨old, hold, hset, _⟩ := hchanges.object
      rw [hobject] at hold
      cases hold
      simp only [if_pos hplace]
      exact hset
    · have hne : ¬ some place' = some place := fun h => hsame (Option.some.inj h).symm
      simp only [hplace, if_neg hne]
      rw [hchanges.others place hsame]
      exact hobject

/-! ## What a run of calls preserves -/

theorem isArena_empty (defaults : Defaults) : (empty defaults).IsArena where
  sound := by
    intro handle place hplace
    have hnone : (none : Option Place) = some place := hplace
    cases hnone
  proper := by
    intro place object hobject
    have hnone : (empty defaults).object? place = none := by cases place <;> rfl
    rw [hnone] at hobject
    cases hobject
  names := List.nodup_nil
  apart := by
    intro handle _ place hplace
    have hnone : (none : Option Place) = some place := hplace
    cases hnone

theorem IsArena.run (h : r.IsArena) (calls : List Call) : (r.run calls).IsArena := by
  induction calls generalizing r with
  | nil => exact h
  | cons c calls ih => exact ih (h.answered (answers h.sound c))

theorem place?_run (h : r.IsArena) (calls : List Call) {handle : Handle} {place : Place}
    (hplace : r.place? handle = some place) : (r.run calls).place? handle = some place := by
  induction calls generalizing r with
  | nil => exact hplace
  | cons c calls ih =>
    have hanswers := answers h.sound c
    exact ih (h.answered hanswers) (hanswers.place? hplace)

/-- An object stays as it is, but for the attributes that are granted for it. -/
theorem object?_run (h : r.IsArena) (calls : List Call) {place : Place} {object : SceneObject}
    (hobject : r.object? place = some object) :
    (r.run calls).object? place = some ((r.granted place calls).foldl SceneObject.set object) := by
  induction calls generalizing r object with
  | nil => exact hobject
  | cons c calls ih =>
    rw [granted, List.foldl_append]
    exact ih (h.answered (answers h.sound c)) (object?_call h.sound c hobject)

/-- A handle stands for a place if it did before, or if it was handed out since. -/
theorem place?_run_iff (h : r.IsArena) (calls : List Call) (handle : Handle) :
    (∃ place, (r.run calls).place? handle = some place) ↔
      (∃ place, r.place? handle = some place) ∨ handle ∈ r.handed calls := by
  induction calls generalizing r with
  | nil => simp [run, handed]
  | cons c calls ih =>
    have hanswers := answers h.sound c
    have hrest := ih (h.answered hanswers)
    rw [handed, List.mem_append, ← or_assoc, ← hanswers.place?_iff]
    exact hrest

/-- On a registry without compositors, after any calls: the handles that stand for a place are
    those that were handed out.  At the place is an object, of the kind of the place, so that no
    index on the way to it is out of bounds; and after any calls more the handle stands for the
    same place, and the object there is as it was but for the attributes that were granted for it.
    No two compositors have one name, nor two textures of a technique; no two handles stand for
    one place, unless it is an output target; and the output target is what each handle for the
    output target of a technique stands for.

    A further call is answered by an error exactly if there is a reason for it, and then nothing is
    changed.  Otherwise a handle is handed out and new objects are made, or an attribute is set:
    of the object that the call is about one field is changed, or it has a texture more, and
    all other objects are as they were. -/
theorem run_isArena (defaults : Defaults) (calls : List Call) :
    let r := (empty defaults).run calls
    (∀ handle, (∃ place, r.place? handle = some place) ↔
      handle ∈ (empty defaults).handed calls) ∧
    (∀ handle place, r.place? handle = some place →
      ∃ object, r.object? place = some object ∧ object.kind = place.kind ∧ ∀ more,
        (r.run more).place? handle = some place ∧
        (r.run more).object? place =
          some ((r.granted place more).foldl SceneObject.set object)) ∧
    r.names.Nodup ∧ (∀ place object, r.object? place = some object → object.Proper) ∧
    (∀ handle handle' place, r.place? handle = some place → r.place? handle' = some place →
      handle = handle' ∨ ∃ c t, place = .target c t .output) ∧
    (∀ parent c t, r.place? parent = some (.technique c t) →
      ∃ handle r', r.call (.createChild parent .outputTarget) = (.ok (some handle), r') ∧
        r'.place? handle = some (.target c t .output)) ∧
    ∀ c, r.Answers c (r.call c).1 (r.call c).2 ∧
      ∀ error, (r.call c).1 = .error error ↔ r.Refuses c error := by
  intro r
  have hbegun : (empty defaults).IsArena := isArena_empty defaults
  have h : r.IsArena := hbegun.run calls
  refine ⟨?_, ?_, h.names, h.proper, h.apart, ?_, ?_⟩
  · intro handle
    rw [place?_run_iff hbegun calls handle]
    have hnone : ¬ ∃ place, (empty defaults).place? handle = some place := nofun
    rw [or_iff_right hnone]
  · intro handle place hplace
    obtain ⟨object, hobject⟩ := holds_iff_object?.mp (h.sound handle place hplace)
    refine ⟨object, hobject, kind_of_object? hobject, fun more => ?_⟩
    exact ⟨place?_run h more hplace, object?_run h more hobject⟩
  · intro parent c t hparent
    refine ⟨⟨r.places.length⟩, (r.handOut (.target c t .output)).2, ?_, ?_⟩
    · simp only [call, createChild, hparent]
      rfl
    · simp [place?, handOut]
  · intro c
    exact ⟨answers h.sound c, call_eq_error_iff h.sound c⟩

/-- Two handles for one output target: what is set through the second is set for the first. -/
example :
    let r := (empty .standard).run [.createCompositor "Bloom" "General", .createChild ⟨0⟩ .technique,
      .createChild ⟨1⟩ .outputTarget, .createChild ⟨1⟩ .outputTarget,
      .setAttribute ⟨3⟩ (.target (.onlyInitial true))]
    r.place? ⟨2⟩ = some (.target 0 0 .output) ∧ r.place? ⟨3⟩ = some (.target 0 0 .output) ∧
      (r.target? 0 0 .output).map (·.onlyInitial) = some true := by
  exact ⟨rfl, rfl, rfl⟩

end Compositing.Registry
