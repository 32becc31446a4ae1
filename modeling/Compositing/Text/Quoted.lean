import Compositing.Text.Printable

/-! # Quoted texts

    A text between quotes, as it stands in messages for developers: quotes and
    backslashes get a backslash, some controls a letter, and what has no shape
    of its own its number. -/

namespace Compositing.Text

/-- A character of a quoted text. -/
def quotedChar (c : Char) : List Char :=
  if c = '"' || c = '\\' then ['\\', c]
  else if c = '\n' then ['\\', 'n']
  else if c = '\r' then ['\\', 'r']
  else if c = '\t' then ['\\', 't']
  else if c.toNat = 0 then ['\\', '0']
  else if (0x20 ≤ c.toNat && c.toNat < 0x7F) || isPrintable c then [c]
  else ['\\', 'u', '\x7b'] ++ Nat.toDigits 16 c.toNat ++ ['\x7d']

/-- A text between quotes. -/
def quoted (s : String) : String :=
  "\"" ++ String.ofList (s.toList.flatMap quotedChar) ++ "\""

/-- Quoted texts between brackets, on one line. -/
def quotedList (texts : List String) : String :=
  "[" ++ ", ".intercalate (texts.map quoted) ++ "]"

/-- Quoted texts between brackets, a line for each. -/
def quotedLines (texts : List String) : String :=
  if texts.isEmpty then "[]"
  else "[\n" ++ String.join (texts.map fun text => "    " ++ quoted text ++ ",\n") ++ "]"

end Compositing.Text
