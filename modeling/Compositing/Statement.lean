import Compositing.Recognition

/-! # Statements of a script

    A script is cut into statements one at a time.  Where no statement
    matches, the offending one is reported and skipped as a whole, and the
    next one is tried: a mismatch never ends a script.

    Skipping starts at the first character of the failed statement.  Strings
    and comments are stepped over and braces counted; it ends after a line end
    outside all braces, unless the next line opens a block, or just before a
    `}` that closes an outer block.  So a failed opener takes its whole block
    with it and leaves no stray `}` behind. -/

namespace Compositing

/-- The tokens of a matched statement and where it begins. -/
structure Statement where
  tokens : List Token
  offset : Nat
  line : Nat
  deriving DecidableEq

/-- Where no statement matched, and the word that stands there, if any. -/
structure Mismatch where
  offset : Nat
  line : Nat
  nearby : Option String
  deriving DecidableEq

namespace Mismatch

/-- What stands at a mismatch with no word left. -/
def endOfScript : String := "end of script"

/-- The longest part of a word that is shown. -/
def nearbyLimit : Nat := 32

/-- The word at the front of `text`, as far as it is shown. -/
def nearbyWord? (text : List Char) : Option String :=
  (Text.firstWord? text).map fun word => String.ofList (word.take nearbyLimit)

/-- The word at a mismatch, or that there is none. -/
def nearbyText (m : Mismatch) : String := m.nearby.getD endOfScript

/-- The wording of a mismatch. -/
def message (m : Mismatch) : String :=
  match m.nearby with
  | some word => "unexpected '" ++ word ++ "'"
  | none => "unexpected " ++ endOfScript

end Mismatch

/-! ## Resynchronisation -/

namespace Resync

/-- What the character ahead belongs to.  In code it may be known that an opening brace is the
    next character that is not blank. -/
inductive Mode where
  | code (opening : Bool)
  | quoted
  | comment

/-- A line end closes a string and a comment. -/
def Mode.afterLineEnd : Mode → Mode
  | .code opening => .code opening
  | .quoted => .code false
  | .comment => .code false

/-- Is an opening brace the first character that is not blank? -/
def opensBlock (text : List Char) : Bool := (Text.trimStart text).head? == some '{'

/-- How many characters are skipped: `depth` braces are open and `taken` characters passed. -/
def lengthFrom (mode : Mode) (depth taken : Nat) : List Char → Nat
  | [] => taken
  | c :: rest =>
    match if c = '\n' then mode.afterLineEnd else mode with
    | .quoted => lengthFrom (if c = '"' then .code false else .quoted) depth (taken + 1) rest
    | .comment => lengthFrom .comment depth (taken + 1) rest
    | .code opening =>
      match c with
      | '"' => lengthFrom .quoted depth (taken + 1) rest
      | '{' => lengthFrom (.code false) (depth + 1) (taken + 1) rest
      | '}' =>
        if depth = 0 then (if taken = 0 then 1 else taken)
        else lengthFrom (.code false) (depth - 1) (taken + 1) rest
      | '\n' =>
        -- the brace of an opener may stand on the next line
        if depth = 0 && !(opening || opensBlock rest) then taken + 1
        else lengthFrom (.code (depth = 0)) depth (taken + 1) rest
      | c =>
        let mode := if c = '/' && rest.head? = some '/' then .comment else .code opening
        lengthFrom mode depth (taken + 1) rest

/-- How many characters of `text`, which begins with a failed statement, are skipped. -/
def length (text : List Char) : Nat := lengthFrom (.code false) 0 0 text

end Resync

/-! ## Events -/

/-- A matched statement or a mismatch. -/
inductive Event where
  | statement (statement : Statement)
  | mismatch (mismatch : Mismatch)
  deriving DecidableEq

namespace Event

/-- The next event and the position after it, or nothing if only trivia is left.  `recognize`
    matches a statement at a position. -/
def next? (recognize : Position → Recognition) (p : Position) : Option (Event × Position) :=
  let here := p.skipTrivia
  if here.atEnd then none
  else
    let outcome := recognize here
    if outcome.matched && here.offset < outcome.position.offset then
      some (.statement ⟨outcome.tokens, here.offset, here.line⟩, outcome.position)
    else
      let failure := here.forwardTo outcome.furthest
      some (.mismatch ⟨failure.offset, failure.line, Mismatch.nearbyWord? failure.rest⟩,
        here.advance (Resync.length here.rest))

/-- Up to `fuel` events from a position on. -/
def all (recognize : Position → Recognition) : (fuel : Nat) → Position → List Event
  | 0, _ => []
  | fuel + 1, p =>
    match next? recognize p with
    | some (event, rest) => event :: all recognize fuel rest
    | none => []

end Event

namespace Grammar

/-- The events of a text.  Each takes at least one character, so there are no more of them
    than characters. -/
def events (g : Grammar) (caseSensitive : Bool) (text : List Char) : List Event :=
  Event.all (fun p => g.recognize caseSensitive g.statement p p.offset) text.length
    (Position.start text)

end Grammar
end Compositing
