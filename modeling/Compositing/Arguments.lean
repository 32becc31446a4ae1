import Compositing.Token

/-! # Arguments of an action

    A sequential reader over the tokens between one action's own token and
    the next.  A read that fails takes nothing. -/

namespace Compositing

/-- The kinds of token that can be asked for. -/
inductive Token.Expected where
  | keyword
  | number
  | label

/-- The wording of what was asked for. -/
def Token.Expected.text : Token.Expected → String
  | .keyword => "a keyword"
  | .number => "a number"
  | .label => "a label"

/-- Why a read failed. -/
inductive ArgumentError where
  | exhausted (expected : Token.Expected)
  | unexpectedKind (expected : Token.Expected) (found : Nat)

/-- The wording of a failed read. -/
def ArgumentError.message : ArgumentError → String
  | .exhausted expected => "expected " ++ expected.text ++ " but the statement ended"
  | .unexpectedKind expected found =>
    "expected " ++ expected.text ++ " but found token " ++ toString found

/-- The unread arguments of an action, and the line to report once all are read. -/
structure Arguments where
  tokens : List Token
  endLine : Nat

namespace Arguments

/-- The line of the next token, or the line of the action if all are read. -/
def line (a : Arguments) : Nat := (a.tokens.head?.map (·.line)).getD a.endLine

/-- The id of the next token. -/
def peekId? (a : Arguments) : Option Nat := a.tokens.head?.map (·.id)

/-- How many arguments are unread. -/
def remaining (a : Arguments) : Nat := a.tokens.length

/-- Takes the next token, whatever it is, for its id. -/
def nextId (a : Arguments) : Except ArgumentError (Nat × Arguments) :=
  match a.tokens with
  | [] => .error (.exhausted .keyword)
  | t :: rest => .ok (t.id, { a with tokens := rest })

/-- Takes the next token if its id is `id`. -/
def takeIf (id : Nat) (a : Arguments) : Bool × Arguments :=
  if a.peekId? = some id then (true, { a with tokens := a.tokens.drop 1 }) else (false, a)

/-- Takes a number. -/
def nextNumber (a : Arguments) : Except ArgumentError (Number × Arguments) :=
  match a.tokens with
  | [] => .error (.exhausted .number)
  | ⟨.number value, _, _⟩ :: rest => .ok (value, { a with tokens := rest })
  | t :: _ => .error (.unexpectedKind .number t.id)

/-- Takes a label. -/
def nextLabel (a : Arguments) : Except ArgumentError (String × Arguments) :=
  match a.tokens with
  | [] => .error (.exhausted .label)
  | ⟨.label text, _, _⟩ :: rest => .ok (text, { a with tokens := rest })
  | t :: _ => .error (.unexpectedKind .label t.id)

end Arguments
end Compositing
