import Compositing.Language
import Compositing.Scene.Builder
import Compositing.Script.Keyword

/-! # The context of a statement

    The grammar of compositor scripts is flat, so nesting is tracked here.  A
    context knows the innermost open block and a handle for every open block.
    A block that was refused is not open: it is only counted until its brace,
    and so are the blocks inside it. -/

namespace Compositing.Script

/-! ## Sections -/

/-- The innermost open block. -/
inductive Section where
  | none | compositor | technique | target | pass
  deriving DecidableEq

namespace Section

def all : List Section := [none, compositor, technique, target, pass]

def name : Section → String
  | none => "none"
  | compositor => "compositor"
  | technique => "technique"
  | target => "target"
  | pass => "pass"

def ofName? (s : String) : Option Section := all.find? (·.name == s)

/-- The section that a closing brace returns to. -/
def parent : Section → Section
  | none => none
  | compositor => none
  | technique => compositor
  | target => technique
  | pass => target

/-- How many blocks are open. -/
def depth : Section → Nat
  | none => 0
  | compositor => 1
  | technique => 2
  | target => 3
  | pass => 4

/-- Where a statement in the section stands; a target may be an output target. -/
def location (output : Bool) : Section → String
  | none => "at top level"
  | compositor => "in a compositor block"
  | technique => "in a technique block"
  | target => if output then "in a target_output block" else "in a target block"
  | pass => "in a pass block"

end Section

/-! ## Inconsistencies -/

/-- What only a grammar at odds with its actions can cause. -/
inductive Inconsistency.Cause where
  /-- The section has no handle. -/
  | noHandle (within : Section)
  | notKeyword (id : Nat)
  | wrongRole (keyword : Keyword) (role : Keyword.Role)

/-- The wording of a cause. -/
def Inconsistency.Cause.text : Inconsistency.Cause → String
  | .noHandle within => within.name ++ " section without an open " ++ within.name
  | .notKeyword id => "token " ++ toString id ++ " is not a compositor keyword"
  | .wrongRole keyword role => "'" ++ keyword.text ++ "' is not a " ++ role.text

/-- An inconsistency and the line of the action it was found in. -/
structure Inconsistency where
  line : Nat
  cause : Inconsistency.Cause

/-- The wording of an inconsistency. -/
def Inconsistency.message (i : Inconsistency) : String := inconsistencyText i.line i.cause.text

/-! ## Contexts -/

/-- Where in a document the next statement stands. -/
structure Context where
  /-- The group of new compositors. -/
  group : String
  innermost : Section
  /-- The open compositor and its name. -/
  compositor : Option (Handle × String)
  technique : Option Handle
  target : Option Handle
  pass : Option Handle
  /-- Is the open target the output target of its technique? -/
  outputTarget : Bool
  /-- How many refused blocks are still to be closed. -/
  skipDepth : Nat
  deriving DecidableEq

namespace Context

/-- The context at the beginning of a document. -/
def initial (group : String) : Context :=
  { group
    innermost := .none
    compositor := none
    technique := none
    target := none
    pass := none
    outputTarget := false
    skipDepth := 0 }

/-- The name of the open compositor. -/
def compositorName (c : Context) : Option String := c.compositor.map (·.2)

/-- Where the next statement stands. -/
def location (c : Context) : String := c.innermost.location c.outputTarget

/-- How many blocks are still to be closed, the refused ones included. -/
def openBlocks (c : Context) : Nat := c.innermost.depth + c.skipDepth

/-- The handle of an open block, whichever is asked for. -/
def handle? (c : Context) : Section → Option Handle
  | .none => none
  | .compositor => c.compositor.map (·.1)
  | .technique => c.technique
  | .target => c.target
  | .pass => c.pass

/-- The handle of an open block; an action on `line` that needs it must find it. -/
def handle (c : Context) (within : Section) (line : Nat) : Except Inconsistency Handle :=
  match c.handle? within with
  | some handle => .ok handle
  | none => .error ⟨line, .noHandle within⟩

/-! ## Opening and closing -/

/-- A compositor was opened. -/
def openCompositor (c : Context) (handle : Handle) (name : String) : Context :=
  { c with innermost := .compositor, compositor := some (handle, name) }

/-- A technique was opened. -/
def openTechnique (c : Context) (handle : Handle) : Context :=
  { c with innermost := .technique, technique := some handle }

/-- A target was opened. -/
def openTarget (c : Context) (handle : Handle) (output : Bool) : Context :=
  { c with innermost := .target, target := some handle, outputTarget := output }

/-- A pass was opened. -/
def openPass (c : Context) (handle : Handle) : Context :=
  { c with innermost := .pass, pass := some handle }

/-- The innermost block was closed; its handle is dropped. -/
def close (c : Context) : Context :=
  let closed :=
    match c.innermost with
    | .none => c
    | .compositor => { c with compositor := none }
    | .technique => { c with technique := none }
    | .target => { c with target := none, outputTarget := false }
    | .pass => { c with pass := none }
  { closed with innermost := c.innermost.parent }

end Context
end Compositing.Script
