import Compositing.Text.Blank

/-! # Diagnostics

    What an author is told about a script.  A diagnostic names the document,
    the line and the compositor being built; an anonymous document has no line
    worth telling. -/

namespace Compositing

/-- The kinds of problem. -/
inductive DiagnosticKind where
  /-- The text matched no statement. -/
  | syntaxMismatch
  /-- A statement in a place where it is not allowed. -/
  | misplaced
  /-- A value that an action or the builder refused. -/
  | domainValue
  deriving DecidableEq

namespace DiagnosticKind

def all : List DiagnosticKind := [syntaxMismatch, misplaced, domainValue]

/-- The word for a kind in messages. -/
def word : DiagnosticKind → String
  | syntaxMismatch => "syntax"
  | misplaced => "misplaced"
  | domainValue => "value"

/-- The name of a kind. -/
def name : DiagnosticKind → String
  | syntaxMismatch => "SyntaxMismatch"
  | misplaced => "Misplaced"
  | domainValue => "DomainValue"

/-- The name of a kind in data, with hyphens. -/
def tag : DiagnosticKind → String
  | syntaxMismatch => "syntax-mismatch"
  | misplaced => "misplaced"
  | domainValue => "domain-value"

def ofName? (s : String) : Option DiagnosticKind := all.find? (·.name == s)

end DiagnosticKind

/-- A problem in a script. -/
structure Diagnostic where
  kind : DiagnosticKind
  document : String
  line : Nat
  compositor : Option String
  message : String
  deriving DecidableEq

/-- A diagnostic as it is shown. -/
def Diagnostic.text (d : Diagnostic) : String :=
  let place :=
    match d.compositor with
    | some name => "Error in compositor " ++ name
    | none => "Error"
  if d.document.isEmpty then place ++ " : " ++ d.message
  else place ++ " at line " ++ toString d.line ++ " of " ++ d.document ++ ": " ++ d.message

end Compositing
