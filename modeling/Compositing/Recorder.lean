import Compositing.Language

/-! # Recording a run

    A handler that keeps a log of everything it is handed, for languages whose
    actions are mere names.  It can be told to read some arguments, to skip
    the rest of a statement and to stop at given actions. -/

namespace Compositing.Recorder

/-- An entry of the log. -/
inductive Entry where
  | begun (document : Document)
  /-- A unit, what was read of its arguments, and the line of the reader afterwards. -/
  | unit (action : String) (token : Token) (arguments : Arguments)
      (reads : List (Except ArgumentError Nat)) (lineAfter : Nat)
  | mismatch (mismatch : Mismatch)
  | ended

/-- The action at which the recorder stopped, and its line. -/
structure Stopped where
  action : String
  line : Nat

/-- The wording of a stop. -/
def Stopped.message (s : Stopped) : String :=
  inconsistencyText s.line ("stopped by " ++ s.action)

/-- What the recorder does beside recording. -/
structure Plan where
  /-- How many arguments it reads of each unit. -/
  reads : Nat
  skipOn : List String
  stopOn : List String

/-- Reads the ids of `count` arguments; a failed read is kept and takes nothing. -/
def readIds : (count : Nat) → Arguments → List (Except ArgumentError Nat) × Arguments
  | 0, a => ([], a)
  | count + 1, a =>
    match a.nextId with
    | .ok (id, a) =>
      let (reads, a) := readIds count a
      (.ok id :: reads, a)
    | .error error =>
      let (reads, a) := readIds count a
      (.error error :: reads, a)

/-- The recording handler; its state is the log, latest entry first. -/
def handler (plan : Plan) : Handler String (List Entry) Stopped where
  beginDocument document log := .begun document :: log
  dispatch action token arguments log :=
    let (reads, rest) := readIds plan.reads arguments
    let log := .unit action token arguments reads rest.line :: log
    let result :=
      if plan.stopOn.contains action then .error ⟨action, token.line⟩
      else if plan.skipOn.contains action then .ok .skipStatement
      else .ok .continue
    (result, rest, log)
  mismatch m log := .mismatch m :: log
  endDocument log := .ended :: log

end Compositing.Recorder
