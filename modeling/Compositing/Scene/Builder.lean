import Compositing.Scene.Attribute

/-! # Builders

    A script never owns the objects it describes.  It asks a builder to create
    compositors and their children and to set attributes, and knows objects by
    handles only.  A builder is a record of three operations over a state. -/

namespace Compositing

/-- The name of an object. -/
structure Handle where
  index : Nat
  deriving DecidableEq

/-- A handle in a message. -/
def Handle.text (h : Handle) : String := "#" ++ toString h.index

/-- The kinds of object that others own. -/
inductive ChildKind where
  | technique
  | target
  /-- The output target of a technique, which is there from the beginning. -/
  | outputTarget
  | pass
  deriving DecidableEq

/-- The word for a kind of child in messages. -/
def ChildKind.name : ChildKind → String
  | .technique => "technique"
  | .target => "target"
  | .outputTarget => "output target"
  | .pass => "pass"

/-- The kinds of object. -/
inductive ObjectKind where
  | compositor
  | technique
  | target
  | pass
  deriving DecidableEq

/-- The word for a kind of object in messages. -/
def ObjectKind.name : ObjectKind → String
  | .compositor => "compositor"
  | .technique => "technique"
  | .target => "target"
  | .pass => "pass"

/-- The kinds of thing whose names must differ. -/
inductive NamedKind where
  | compositor
  | texture
  deriving DecidableEq

/-- The word for a kind of named thing in messages. -/
def NamedKind.name : NamedKind → String
  | .compositor => "compositor"
  | .texture => "texture"

/-- Why a builder refused. -/
inductive BuilderError where
  | duplicateName (kind : NamedKind) (name : String)
  | unknownHandle (handle : Handle)
  | invalidChild (parent : ObjectKind) (child : ChildKind)
  | invalidAttribute (attr : Attribute) (object : ObjectKind)

/-- The wording of a refusal. -/
def BuilderError.message : BuilderError → String
  | .duplicateName kind name => kind.name ++ " '" ++ name ++ "' already exists"
  | .unknownHandle handle => "unknown object handle " ++ toString handle.index
  | .invalidChild parent child => "a " ++ parent.name ++ " cannot own a " ++ child.name
  | .invalidAttribute attr object =>
    "attribute " ++ attr.name ++ " does not apply to a " ++ object.name

/-- The operations of a builder with state `σ`. -/
structure Builder (σ : Type) where
  createCompositor : (name group : String) → σ → Except BuilderError Handle × σ
  createChild : (parent : Handle) → (kind : ChildKind) → σ → Except BuilderError Handle × σ
  setAttribute : (object : Handle) → (attr : Attribute) → σ → Except BuilderError Unit × σ

end Compositing
