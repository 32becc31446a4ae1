import Compositing.Text.Blank

/-! # Positions in a text

    A position is what is left of the text, the byte offset reached and the
    line.  Lines are counted from 1 as line ends are passed.  Every move goes
    through `advance`, so offset and line always agree with the text passed. -/

namespace Compositing

/-- A place in a text: the characters ahead, the byte offset and the line. -/
structure Position where
  rest : List Char
  offset : Nat
  line : Nat
  deriving DecidableEq

namespace Position

/-- The beginning of `text`. -/
def start (text : List Char) : Position := ⟨text, 0, 1⟩

/-- Is nothing left? -/
def atEnd (p : Position) : Bool := p.rest.isEmpty

/-- The character ahead. -/
def peek? (p : Position) : Option Char := p.rest.head?

/-- The position `n` characters further on, or the end of the text. -/
def advance : Nat → Position → Position
  | 0, p => p
  | _ + 1, ⟨[], offset, line⟩ => ⟨[], offset, line⟩
  | n + 1, ⟨c :: rest, offset, line⟩ =>
    advance n ⟨rest, offset + c.utf8Size, if c = '\n' then line + 1 else line⟩

/-! ## Byte offsets -/

/-- How many whole characters of `text` fit in `bytes` bytes. -/
def charactersWithin (bytes : Nat) (text : List Char) : Nat :=
  go bytes 0 text
where
  go (bytes taken : Nat) : List Char → Nat
    | [] => taken
    | c :: rest =>
      if c.utf8Size ≤ bytes then go (bytes - c.utf8Size) (taken + 1) rest else taken

/-- The position `bytes` bytes further on, or the end of the text. -/
def advanceBytes (bytes : Nat) (p : Position) : Position :=
  p.advance (charactersWithin bytes p.rest)

/-- The position at byte `offset`, counting lines from here; stays if `offset` is behind. -/
def forwardTo (offset : Nat) (p : Position) : Position := p.advanceBytes (offset - p.offset)

/-- The line of an offset at or after this position. -/
def lineAt (offset : Nat) (p : Position) : Nat := (p.forwardTo offset).line

/-- The place at byte `offset` of `text`, or its end, labelled with `line`. -/
def seek (text : List Char) (offset line : Nat) : Position :=
  { (start text).advanceBytes offset with line }

/-! ## Trivia -/

/-- How many characters of white space and `//` comments `text` begins with.  A comment
    reaches to the next line end or to the end of the text. -/
def triviaLength (text : List Char) : Nat :=
  go false 0 text
where
  go (inComment : Bool) (taken : Nat) : List Char → Nat
    | [] => taken
    | c :: rest =>
      if inComment then go (c != '\n') (taken + 1) rest
      else if Text.isBlank c then go false (taken + 1) rest
      else if c == '/' && rest.head? == some '/' then go true (taken + 1) rest
      else taken

/-- The position after white space and comments. -/
def skipTrivia (p : Position) : Position := p.advance (triviaLength p.rest)

end Position
end Compositing
