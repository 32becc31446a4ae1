import Compositing.Scene.Builder

/-! # The registry

    A builder that keeps the compositors in memory.  A handle is an index into
    a table of places; a place is a path of indices from a compositor down, so
    it goes on to denote the same object while others are added. -/

namespace Compositing

/-- Which target of a technique. -/
inductive TargetSlot where
  | output
  | named (index : Nat)
  deriving DecidableEq

/-- Where an object is: the indices that lead to it. -/
inductive Place where
  | compositor (c : Nat)
  | technique (c t : Nat)
  | target (c t : Nat) (slot : TargetSlot)
  | pass (c t : Nat) (slot : TargetSlot) (p : Nat)
  deriving DecidableEq

/-- The kind of object at a place. -/
def Place.kind : Place → ObjectKind
  | .compositor _ => .compositor
  | .technique _ _ => .technique
  | .target _ _ _ => .target
  | .pass _ _ _ _ => .pass

/-- The target in a slot. -/
def Technique.target? (t : Technique) : TargetSlot → Option Target
  | .output => some t.output
  | .named i => t.targets[i]?

/-- The technique with the target in a slot changed. -/
def Technique.modifyTarget (t : Technique) (slot : TargetSlot) (f : Target → Target) :
    Technique :=
  match slot with
  | .output => { t with output := f t.output }
  | .named i => { t with targets := t.targets.modify i f }

/-- Compositors, the places of the handles handed out, and the defaults for new objects. -/
structure Registry where
  compositors : List Compositor
  places : List Place
  defaults : Defaults
  deriving DecidableEq

namespace Registry

/-- A registry without compositors. -/
def empty (defaults : Defaults) : Registry := ⟨[], [], defaults⟩

/-! ## Looking up -/

/-- The compositor called `name`. -/
def find? (r : Registry) (name : String) : Option Compositor :=
  r.compositors.find? (·.name == name)

/-- The place a handle stands for. -/
def place? (r : Registry) (h : Handle) : Option Place := r.places[h.index]?

/-- The technique at a path. -/
def technique? (r : Registry) (c t : Nat) : Option Technique :=
  r.compositors[c]?.bind (·.techniques[t]?)

/-- The target at a path. -/
def target? (r : Registry) (c t : Nat) (slot : TargetSlot) : Option Target :=
  (r.technique? c t).bind (·.target? slot)

/-! ## Changing -/

/-- Hands out a handle for a place. -/
def handOut (r : Registry) (place : Place) : Handle × Registry :=
  (⟨r.places.length⟩, { r with places := r.places ++ [place] })

/-- Changes the compositor at an index. -/
def modifyCompositor (r : Registry) (c : Nat) (f : Compositor → Compositor) : Registry :=
  { r with compositors := r.compositors.modify c f }

/-- Changes the technique at a path. -/
def modifyTechnique (r : Registry) (c t : Nat) (f : Technique → Technique) : Registry :=
  r.modifyCompositor c fun compositor =>
    { compositor with techniques := compositor.techniques.modify t f }

/-- Changes the target at a path. -/
def modifyTarget (r : Registry) (c t : Nat) (slot : TargetSlot) (f : Target → Target) :
    Registry :=
  r.modifyTechnique c t fun technique => technique.modifyTarget slot f

/-- Changes the pass at a path. -/
def modifyPass (r : Registry) (c t : Nat) (slot : TargetSlot) (p : Nat) (f : Pass → Pass) :
    Registry :=
  r.modifyTarget c t slot fun target => { target with passes := target.passes.modify p f }

/-! ## Operations -/

/-- Adds a compositor, unless the name is taken. -/
def createCompositor (name group : String) (r : Registry) :
    Except BuilderError Handle × Registry :=
  if (r.find? name).isSome then (.error (.duplicateName .compositor name), r)
  else
    let added := { r with compositors := r.compositors ++ [Compositor.mk name group []] }
    let (handle, added) := added.handOut (.compositor r.compositors.length)
    (.ok handle, added)

/-- Adds a child of the object at a place: the place of the child and the registry with it.
    The output target is not added but found. -/
def addChild (r : Registry) (parent : Place) (kind : ChildKind) :
    Except BuilderError (Place × Registry) :=
  match parent, kind with
  | .compositor c, .technique =>
    let index := (r.compositors[c]?.map (·.techniques.length)).getD 0
    .ok (.technique c index,
      r.modifyCompositor c fun compositor =>
        { compositor with techniques := compositor.techniques ++ [.new r.defaults] })
  | .technique c t, .target =>
    let index := ((r.technique? c t).map (·.targets.length)).getD 0
    .ok (.target c t (.named index),
      r.modifyTechnique c t fun technique =>
        { technique with targets := technique.targets ++ [.new r.defaults] })
  | .technique c t, .outputTarget => .ok (.target c t .output, r)
  | .target c t slot, .pass =>
    let index := ((r.target? c t slot).map (·.passes.length)).getD 0
    .ok (.pass c t slot index,
      r.modifyTarget c t slot fun target =>
        { target with passes := target.passes ++ [.new r.defaults] })
  | parent, kind => .error (.invalidChild parent.kind kind)

/-- Adds a child of an object and hands out a handle for it. -/
def createChild (parent : Handle) (kind : ChildKind) (r : Registry) :
    Except BuilderError Handle × Registry :=
  match r.place? parent with
  | none => (.error (.unknownHandle parent), r)
  | some place =>
    match r.addChild place kind with
    | .error error => (.error error, r)
    | .ok (child, added) =>
      let (handle, added) := added.handOut child
      (.ok handle, added)

/-- Sets an attribute of an object.  Textures of a technique must differ in name. -/
def setAttribute (object : Handle) (attr : Attribute) (r : Registry) :
    Except BuilderError Unit × Registry :=
  match r.place? object, attr with
  | none, _ => (.error (.unknownHandle object), r)
  | some (.technique c t), .texture texture =>
    if ((r.technique? c t).map (·.textures)).getD [] |>.any (·.name == texture.name) then
      (.error (.duplicateName .texture texture.name), r)
    else
      (.ok (), r.modifyTechnique c t fun technique =>
        { technique with textures := technique.textures ++ [texture] })
  | some (.target c t slot), .target attr =>
    (.ok (), r.modifyTarget c t slot (·.set attr))
  | some (.pass c t slot p), .pass attr =>
    (.ok (), r.modifyPass c t slot p (·.set attr))
  | some place, attr => (.error (.invalidAttribute attr place.kind), r)

/-- The registry as a builder. -/
def builder : Builder Registry := ⟨createCompositor, createChild, setAttribute⟩

end Registry
end Compositing
