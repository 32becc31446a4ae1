import Compositing.Text.Position

/-! # Symbols of the grammar dialect

    A grammar text is cut into symbols by longest match, with white space
    between them.  Quoted terminals and character classes are unescaped here,
    so later stages only see final text.

        <Name> ::=  |          a rule, its definition, alternatives
        { } [ ] (?! )          repetition, option, negative lookahead
        <#name> <@name>        a number, a label
        'text' -'text'         a terminal, a silent terminal
        (!chars) (chars)       runs of characters outside or inside a set -/

namespace Compositing.Grammar

/-- A symbol of the dialect. -/
inductive Symbol where
  | define
  | or
  | repeatOpen
  | repeatClose
  | optionalOpen
  | optionalClose
  | lookaheadOpen
  | groupClose
  | rule (name : String)
  | number (name : String)
  | label (name : String)
  | terminal (text : String)
  | silentTerminal (text : String)
  | excludeClass (chars : String)
  | includeClass (chars : String)
  deriving DecidableEq

/-- How a symbol is named in a message. -/
def Symbol.describe : Symbol → String
  | .define => "'::='"
  | .or => "'|'"
  | .repeatOpen => "'\x7b'"
  | .repeatClose => "'\x7d'"
  | .optionalOpen => "'['"
  | .optionalClose => "']'"
  | .lookaheadOpen => "'(?!'"
  | .groupClose => "')'"
  | .rule name => "<" ++ name ++ ">"
  | .number name => "<#" ++ name ++ ">"
  | .label name => "<@" ++ name ++ ">"
  | .terminal text => "terminal '" ++ text ++ "'"
  | .silentTerminal text => "terminal -'" ++ text ++ "'"
  | .excludeClass _ | .includeClass _ => "character class"

/-- A symbol and where it stands. -/
structure PlacedSymbol where
  symbol : Symbol
  /-- Byte offset of its first character. -/
  start : Nat
  /-- Byte offset after its last character. -/
  stop : Nat
  /-- The line it begins on. -/
  line : Nat

namespace Symbol

/-! ## Character classes -/

/-- White space between symbols. -/
def isGap (c : Char) : Bool :=
  c == ' ' || c == '\t' || c == '\r' || c == '\n' || c == '\x0c'

/-- May a name begin with `c`? -/
def beginsName (c : Char) : Bool := c.isAlpha || c == '_'

/-- May a name go on with `c`? -/
def continuesName (c : Char) : Bool := c.isAlphanum || c == '_'

/-! ## Escapes -/

/-- The character that an escaped `c` stands for. -/
def escaped (c : Char) : Char :=
  match c with
  | 'n' => '\n'
  | 'r' => '\r'
  | 't' => '\t'
  | c => c

/-- A payload with its escapes resolved; a backslash at the end stands for itself. -/
def unescape : List Char → List Char
  | [] => []
  | '\\' :: c :: rest => escaped c :: unescape rest
  | c :: rest => c :: unescape rest

/-! ## Scanning one symbol -/

/-- How many characters of `text` form a payload: characters other than `stop` and the
    backslash, and backslashes each with a character that is not a line end. -/
def payloadLength (stop : Char) (text : List Char) : Nat :=
  go 0 text
where
  go (taken : Nat) : List Char → Nat
    | '\\' :: c :: rest => if c == '\n' then taken else go (taken + 2) rest
    | c :: rest => if c == stop || c == '\\' then taken else go (taken + 1) rest
    | [] => taken

/-- What stands at some place of a text: a symbol, or a text that is none; and how many
    characters belong to it. -/
inductive Scan where
  | symbol (symbol : Symbol) (length : Nat)
  | unrecognised (length : Nat)

/-- A payload up to its closing character, of which `opening` characters stand before it. -/
def scanQuoted (make : String → Symbol) (opening : Nat) (stop : Char) (body : List Char) : Scan :=
  let length := payloadLength stop body
  match body.drop length with
  | c :: _ =>
    if c == stop then
      .symbol (make (String.ofList (unescape (body.take length)))) (opening + length + 1)
    else .unrecognised (opening + length)
  | [] => .unrecognised (opening + length)

/-- A name in angle brackets, of which `opening` characters stand before it. -/
def scanNamed (make : String → Symbol) (opening : Nat) (body : List Char) : Scan :=
  if body.head?.any beginsName then
    let name := body.takeWhile continuesName
    match body.drop name.length with
    | '>' :: _ => .symbol (make (String.ofList name)) (opening + name.length + 1)
    | _ => .unrecognised (opening + name.length)
  else .unrecognised 1

/-- The longest symbol that a text of `c` and `rest` begins with. -/
def scan (c : Char) (rest : List Char) : Scan :=
  match c, rest with
  | ':', ':' :: '=' :: _ => .symbol .define 3
  | '|', _ => .symbol .or 1
  | '{', _ => .symbol .repeatOpen 1
  | '}', _ => .symbol .repeatClose 1
  | '[', _ => .symbol .optionalOpen 1
  | ']', _ => .symbol .optionalClose 1
  | ')', _ => .symbol .groupClose 1
  | '<', '#' :: body => scanNamed .number 2 body
  | '<', '@' :: body => scanNamed .label 2 body
  | '<', body => scanNamed .rule 1 body
  | '\'', body => scanQuoted .terminal 1 '\'' body
  | '-', '\'' :: body => scanQuoted .silentTerminal 2 '\'' body
  | '(', '?' :: '!' :: _ => .symbol .lookaheadOpen 3
  | '(', '!' :: body => scanQuoted .excludeClass 2 ')' body
  | '(', body =>
    if body.head?.any fun d => d == '?' || d == ')' then .unrecognised 1
    else scanQuoted .includeClass 1 ')' body
  | _, _ => .unrecognised 1

/-! ## Scanning a text -/

/-- A text that begins with no symbol. -/
structure Unrecognised where
  text : String
  line : Nat

/-- The symbols of a text in order.  `busy` counts the characters ahead that belong to the
    symbol last found. -/
def scanAll (busy offset line : Nat) : List Char → Except Unrecognised (List PlacedSymbol)
  | [] => .ok []
  | c :: rest =>
    let next := offset + c.utf8Size
    let nextLine := if c = '\n' then line + 1 else line
    match busy with
    | busy + 1 => scanAll busy next nextLine rest
    | 0 =>
      if isGap c then scanAll 0 next nextLine rest
      else
        match scan c rest with
        | .unrecognised length => .error ⟨String.ofList ((c :: rest).take length), line⟩
        | .symbol symbol length =>
          (scanAll (length - 1) next nextLine rest).map fun symbols =>
            { symbol, start := offset, line
              stop := offset + Text.byteLength ((c :: rest).take length) } :: symbols

/-- The symbols of a grammar text. -/
def ofText? (text : List Char) : Except Unrecognised (List PlacedSymbol) := scanAll 0 0 1 text

end Symbol
end Compositing.Grammar
