import Compositing.Script.Command

/-! # Carrying out a script

    A session is a document being carried out: the context, the builder's
    state, and a journal of what was asked of the builder and of what was
    reported.  A unit that is refused is reported and changes nothing else; if
    it would have opened a block, that block is skipped up to its brace. -/

namespace Compositing.Script

/-! ## The journal -/

/-- A request to the builder and its answer, or a report. -/
inductive Entry where
  | compositor (name group : String) (result : Except BuilderError Handle)
  | child (parent : Handle) (kind : ChildKind) (result : Except BuilderError Handle)
  | attr (object : Handle) (attr : Attribute) (result : Except BuilderError Unit)
  | report (diagnostic : Diagnostic)

/-- The report in an entry. -/
def Entry.report? : Entry → Option Diagnostic
  | .report diagnostic => some diagnostic
  | _ => none

/-! ## Sessions -/

/-- A document being carried out by a builder with state `σ`. -/
structure Session (σ : Type) where
  context : Context
  /-- The name of the document. -/
  document : String
  lastLine : Nat
  /-- How many diagnostics were reported. -/
  errors : Nat
  builder : σ
  /-- Latest entry first. -/
  journal : List Entry

namespace Session
variable {σ : Type}

/-- A session before its first document. -/
def new (group : String) (builder : σ) : Session σ where
  context := .initial group
  document := ""
  lastLine := 1
  errors := 0
  builder := builder
  journal := []

/-- The diagnostics reported, in order. -/
def diagnostics (s : Session σ) : List Diagnostic := s.journal.reverse.filterMap Entry.report?

/-- Reports a problem in the open compositor. -/
def report (s : Session σ) (kind : DiagnosticKind) (line : Nat) (message : String) : Session σ :=
  let diagnostic := ⟨kind, s.document, line, s.context.compositorName, message⟩
  { s with errors := s.errors + 1, journal := .report diagnostic :: s.journal }

/-! ## Requests to the builder -/

section
variable (b : Builder σ)

/-- Asks for a compositor. -/
def createCompositor (name : String) (s : Session σ) :
    Except BuilderError Handle × Session σ :=
  let (result, builder) := b.createCompositor name s.context.group s.builder
  (result, { s with builder, journal := .compositor name s.context.group result :: s.journal })

/-- Asks for a child of an object. -/
def createChild (parent : Handle) (kind : ChildKind) (s : Session σ) :
    Except BuilderError Handle × Session σ :=
  let (result, builder) := b.createChild parent kind s.builder
  (result, { s with builder, journal := .child parent kind result :: s.journal })

/-- Asks for an attribute to be set. -/
def setAttribute (object : Handle) (attr : Attribute) (s : Session σ) :
    Except BuilderError Unit × Session σ :=
  let (result, builder) := b.setAttribute object attr s.builder
  (result, { s with builder, journal := .attr object attr result :: s.journal })

/-- Asks for a child of an object and for an attribute of the child. -/
def createChildWith (parent : Handle) (kind : ChildKind) (attr : Attribute) (s : Session σ) :
    Except BuilderError Handle × Session σ :=
  match s.createChild b parent kind with
  | (.error error, s) => (.error error, s)
  | (.ok handle, s) =>
    match s.setAttribute b handle attr with
    | (.error error, s) => (.error error, s)
    | (.ok (), s) => (.ok handle, s)

/-! ## Commands -/

/-- Changes the context as an opened block asks for, if its request was granted. -/
def opening (enter : Context → Handle → Context) :
    Except BuilderError Handle × Session σ → Except BuilderError Unit × Session σ
  | (.ok handle, s) => (.ok (), { s with context := enter s.context handle })
  | (.error error, s) => (.error error, s)

/-- Carries out a command.  A block is open once all that was asked for it is granted. -/
def execute (command : Command) (s : Session σ) : Except BuilderError Unit × Session σ :=
  match command with
  | .close => (.ok (), { s with context := s.context.close })
  | .openCompositor name =>
    opening (fun c handle => c.openCompositor handle name) (s.createCompositor b name)
  | .openTechnique parent => opening Context.openTechnique (s.createChild b parent .technique)
  | .openTarget parent output =>
    opening (fun c handle => c.openTarget handle false)
      (s.createChildWith b parent .target (.target (.outputName output)))
  | .openOutputTarget parent =>
    opening (fun c handle => c.openTarget handle true) (s.createChild b parent .outputTarget)
  | .openPass parent type =>
    opening Context.openPass (s.createChildWith b parent .pass (.pass (.passType type)))
  | .set object attr => s.setAttribute b object attr

/-! ## Units -/

/-- Counts the blocks of a skipped unit. -/
def skip (action : Action) (s : Session σ) : Session σ :=
  let depth := s.context.skipDepth
  let depth :=
    if action.opensBlock then depth + 1 else if action = .closeBrace then depth - 1 else depth
  { s with context := { s.context with skipDepth := depth } }

/-- Reports a refused unit and skips the block it would have opened. -/
def refuse (action : Action) (token : Token) (refusal : Refusal) (s : Session σ) : Session σ :=
  let skipDepth := if action.opensBlock then 1 else s.context.skipDepth
  let s := { s with context := { s.context with skipDepth } }
  s.report refusal.kind token.line refusal.message

/-- Reads a unit and carries it out: what becomes of its statement, and the unread arguments. -/
def dispatch (action : Action) (token : Token) (arguments : Arguments) (s : Session σ) :
    Except Inconsistency Flow × Arguments × Session σ :=
  if 0 < s.context.skipDepth then (.ok .continue, arguments, s.skip action)
  else
    let refused (refusal : Refusal) (rest : Arguments) (s : Session σ) :=
      (.ok refusal.flow, rest, s.refuse action token refusal)
    match (Command.read s.context token action).run arguments with
    | (.error (.inconsistent inconsistency), rest) => (.error inconsistency, rest, s)
    | (.error (.refused refusal), rest) => refused refusal rest s
    | (.ok command, rest) =>
      match s.execute b command with
      | (.ok (), s) => (.ok .continue, rest, s)
      | (.error error, s) => refused (.builder error) rest s

end

/-! ## Documents -/

/-- The number of the last line of a text; a line end at the very end begins no line. -/
def lastLineOf (text : List Char) : Nat :=
  let lines := Text.newlines text
  if text.getLast? = some '\n' then lines else lines + 1

/-- A document begins. -/
def beginDocument (d : Document) (s : Session σ) : Session σ :=
  { s with
    context := .initial s.context.group
    document := d.name
    lastLine := lastLineOf d.text.toList }

/-- A statement did not match. -/
def mismatch (m : Mismatch) (s : Session σ) : Session σ := s.report .syntaxMismatch m.line m.message

/-- A document ends; blocks that are still open are reported. -/
def endDocument (s : Session σ) : Session σ :=
  match s.context.openBlocks with
  | 0 => s
  | count =>
    s.report .syntaxMismatch s.lastLine
      ("Unexpected end of script: " ++ toString count ++ " block(s) still open.")

/-- The session as a handler. -/
def handler (b : Builder σ) : Handler Action (Session σ) Inconsistency where
  beginDocument := beginDocument
  dispatch := dispatch b
  mismatch := mismatch
  endDocument := endDocument

end Session
end Compositing.Script
