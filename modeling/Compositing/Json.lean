import Compositing.Number.Decimal

/-! # JSON

    Values and their two written forms: on one line without any space, and
    over many lines with two spaces for each level.  Strings escape only what
    must be escaped. -/

namespace Compositing.Json

/-- A value.  Numbers are natural or of single precision. -/
inductive Value where
  | null
  | bool (on : Bool)
  | natural (n : Nat)
  | single (x : Number)
  | string (text : String)
  | array (items : List Value)
  | object (fields : List (String × Value))

/-! ## Numbers -/

/-- Numbers are written without exponent from 10^-6 to below 10^13, and
    show in any case that they are not integers; infinities do not exist. -/
def numberLayout : Number.Layout where
  format := Number.single
  tie := .even
  positional first := -6 ≤ first && first ≤ 12
  wholeEnd := ".0"
  exponentPlus := "+"
  infinity _ := "null"
  nan := "null"

/-! ## Strings -/

/-- A hexadecimal digit. -/
def hexDigit (n : Nat) : Char := Nat.digitChar n

/-- A character inside a string. -/
def escape (c : Char) : List Char :=
  if c = '"' then ['\\', '"']
  else if c = '\\' then ['\\', '\\']
  else if 0x20 ≤ c.toNat then [c]
  else if c = '\n' then ['\\', 'n']
  else if c = '\t' then ['\\', 't']
  else if c = '\r' then ['\\', 'r']
  else if c.toNat = 0x08 then ['\\', 'b']
  else if c.toNat = 0x0c then ['\\', 'f']
  else ['\\', 'u', '0', '0', hexDigit (c.toNat / 16), hexDigit (c.toNat % 16)]

/-- A string between quotes. -/
def quote (s : String) : String :=
  "\"" ++ String.ofList (s.toList.flatMap escape) ++ "\""

/-! ## On one line -/

namespace Value

mutual
/-- A value on one line. -/
def compact : Value → String
  | .null => "null"
  | .bool on => if on then "true" else "false"
  | .natural n => toString n
  | .single x => numberLayout.write x
  | .string text => quote text
  | .array items => "[" ++ ",".intercalate (compactItems items) ++ "]"
  | .object fields => "\x7b" ++ ",".intercalate (compactFields fields) ++ "\x7d"

/-- The items of an array, each on one line. -/
def compactItems : List Value → List String
  | [] => []
  | value :: rest => value.compact :: compactItems rest

/-- The fields of an object, each on one line. -/
def compactFields : List (String × Value) → List String
  | [] => []
  | (name, value) :: rest => (quote name ++ ":" ++ value.compact) :: compactFields rest
end

/-! ## Over many lines -/

/-- The beginning of a line at a level. -/
def indent (level : Nat) : String := String.ofList (List.replicate (2 * level) ' ')

/-- Written parts between brackets, a line for each; nothing between them without parts. -/
def block (level : Nat) (opening closing : String) (parts : List String) : String :=
  if parts.isEmpty then opening ++ closing
  else
    opening ++ "\n" ++ ",\n".intercalate (parts.map (indent (level + 1) ++ ·)) ++ "\n"
      ++ indent level ++ closing

mutual
/-- A value over many lines, whose first line is at a level. -/
def prettyAt (level : Nat) : Value → String
  | .array items => block level "[" "]" (prettyItems (level + 1) items)
  | .object fields => block level "\x7b" "\x7d" (prettyFields (level + 1) fields)
  | .null => compact .null
  | .bool on => compact (.bool on)
  | .natural n => compact (.natural n)
  | .single x => compact (.single x)
  | .string text => compact (.string text)

/-- The items of an array, each over many lines. -/
def prettyItems (level : Nat) : List Value → List String
  | [] => []
  | value :: rest => value.prettyAt level :: prettyItems level rest

/-- The fields of an object, each over many lines. -/
def prettyFields (level : Nat) : List (String × Value) → List String
  | [] => []
  | (name, value) :: rest =>
    (quote name ++ ": " ++ value.prettyAt level) :: prettyFields level rest
end

/-- A value over many lines. -/
def pretty (v : Value) : String := v.prettyAt 0

/-- A string or nothing. -/
def optional (s : Option String) : Value := (s.map .string).getD .null

end Value
end Compositing.Json
