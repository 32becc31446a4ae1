import Compositing.Number.Decimal

/-! # Tokens

    What matching a statement yields.  A keyword carries the id it was
    registered with; a number or a label carries its value, and its id is one
    of two that no keyword can have. -/

namespace Compositing

/-- What a token stands for. -/
inductive Token.Kind where
  | keyword (id : Nat)
  | number (value : Number)
  | label (text : String)
  deriving DecidableEq

/-- A token and where it begins. -/
structure Token where
  kind : Token.Kind
  offset : Nat
  line : Nat
  deriving DecidableEq

namespace Token

/-- The first id that no keyword may have. -/
def reservedBase : Nat := 1000

/-- The id of every number. -/
def numberId : Nat := reservedBase

/-- The id of every label. -/
def labelId : Nat := reservedBase + 1

/-- The id of a token. -/
def id (t : Token) : Nat :=
  match t.kind with
  | .keyword id => id
  | .number _ => numberId
  | .label _ => labelId

/-- A token in a message. -/
def text (t : Token) : String :=
  match t.kind with
  | .keyword id => "#" ++ toString id
  | .number value => Number.Layout.plain.write value
  | .label text => "\"" ++ text ++ "\""

end Token
end Compositing
