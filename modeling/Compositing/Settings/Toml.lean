import Compositing.Settings.Moment
import Compositing.Settings.Path

/-! # TOML

    Reading settings files, version 1.0 of the format.  A document is read
    line by line into a tree that remembers how each table came to be, since
    that decides whether a later line may add to it; the tree then becomes a
    plain value. -/

namespace Compositing.Settings.Toml

/-! ## The tree -/

/-- How a table came to be. -/
inductive Origin where
  /-- It was named by a header. -/
  | header
  /-- It lies on the way of a longer header. -/
  | passed
  /-- It lies on the way of a dotted key. -/
  | dotted
  deriving DecidableEq

/-- A key's entry while a document is read. -/
inductive Node where
  | value (value : Value)
  | table (origin : Origin) (entries : List (String × Node))
  /-- An array of tables, latest first. -/
  | tables (tables : List (List (String × Node)))

abbrev Entries := List (String × Node)

/-- A table whose first key is this one is a date in disguise. -/
def dateKey : String := "$__toml_private_datetime"

mutual
/-- The plain value of an entry. -/
def Node.toValue? : Node → Option Value
  | .value value => some value
  | .table _ entries => plainTable? entries
  | .tables tables => (plainTables? tables).map fun tables => .list tables.reverse

/-- The plain value of a table.  In place of a date in disguise stands the date. -/
def plainTable? : Entries → Option Value
  | [] => some (.table [])
  | (key, node) :: rest =>
    if key = dateKey then
      match node with
      | .value (.text s) => (Moment.ofText? s.toList).map fun moment => .date moment.text
      | _ => none
    else
      match node.toValue?, plainEntries? rest with
      | some value, some entries => some (.table ((key, value) :: entries))
      | _, _ => none

/-- The plain values of entries. -/
def plainEntries? : Entries → Option (List (String × Value))
  | [] => some []
  | (key, node) :: rest =>
    match node.toValue?, plainEntries? rest with
    | some value, some entries => some ((key, value) :: entries)
    | _, _ => none

/-- The plain values of tables. -/
def plainTables? : List Entries → Option (List Value)
  | [] => some []
  | entries :: rest =>
    match plainTable? entries, plainTables? rest with
    | some value, some values => some (value :: values)
    | _, _ => none
end

/-- The deepest nesting of keys and of values. -/
def deepest : Nat := 79

/-- Changes the table that a path leads to from a table of a given origin.  Missing tables on
    the way are made with the origin `way`; an array of tables leads on through its latest.  A
    dotted key does not lead into a table that a header named. -/
def changeAt (way : Origin) (change : Origin → Entries → Option Entries) :
    (path : List String) → Origin → Entries → Option Entries
  | [], origin, entries => change origin entries
  | key :: path, _, entries =>
    match lookup key entries with
    | none =>
      (changeAt way change path way []).map fun inner => insert key (.table way inner) entries
    | some (.table origin inner) =>
      if way = .dotted && origin = .header then none
      else
        (changeAt way change path origin inner).map fun inner =>
          insert key (.table origin inner) entries
    | some (.tables (latest :: others)) =>
      (changeAt way change path .header latest).map fun latest =>
        insert key (.tables (latest :: others)) entries
    | some (.tables []) | some (.value _) => none

/-- Gives a dotted key a value; it must not have one.  The tables on the way must come from
    dotted keys only. -/
def define (path : List String) (key : String) (value : Value) (entries : Entries) :
    Option Entries :=
  let change (origin : Origin) (entries : Entries) : Option Entries :=
    if !path.isEmpty && origin != .dotted then none
    else if (lookup key entries).isSome then none
    else some (insert key (.value value) entries)
  changeAt .dotted change path .header entries

/-- Begins the table of a header.  One that lay on the way of an earlier header moves to the
    end. -/
def beginTable (path : List String) (key : String) (root : Entries) : Option Entries :=
  let change (_ : Origin) (entries : Entries) : Option Entries :=
    match lookup key entries with
    | none => some (entries ++ [(key, .table .header [])])
    | some (.table .passed inner) =>
      some (entries.filter (·.1 != key) ++ [(key, .table .header inner)])
    | some _ => none
  changeAt .passed change path .header root

/-- Begins a further table of an array of tables. -/
def beginItem (path : List String) (key : String) (root : Entries) : Option Entries :=
  let change (_ : Origin) (entries : Entries) : Option Entries :=
    match lookup key entries with
    | none => some (insert key (.tables [[]]) entries)
    | some (.tables tables) => some (insert key (.tables ([] :: tables)) entries)
    | some _ => none
  changeAt .passed change path .header root

/-! ## Blanks and comments -/

def isSpace (c : Char) : Bool := c == ' ' || c == '\t'

/-- May `c` stand in a comment? -/
def isCommentChar (c : Char) : Bool := c == '\t' || (0x20 ≤ c.toNat && c.toNat != 0x7F)

/-- What follows spaces. -/
def skipSpaces (text : List Char) : List Char := text.dropWhile isSpace

/-- What follows spaces, line ends and comments; the text may begin inside a comment. -/
def skipBlank (inComment : Bool) : List Char → List Char
  | [] => []
  | c :: rest =>
    if c = '\n' || (c = '\r' && rest.head? = some '\n') then skipBlank false rest
    else if inComment then if isCommentChar c then skipBlank true rest else c :: rest
    else if c = '#' then skipBlank true rest
    else if isSpace c then skipBlank false rest
    else c :: rest

/-- What follows the rest of a line, which holds nothing but a comment. -/
def lineEnd? (text : List Char) : Option (List Char) :=
  let text := skipSpaces text
  match if text.head? = some '#' then text.dropWhile isCommentChar else text with
  | [] => some []
  | '\n' :: rest => some rest
  | '\r' :: '\n' :: rest => some rest
  | _ => none

/-! ## Strings -/

/-- The value of a hexadecimal digit. -/
def hexValue? (c : Char) : Option Nat :=
  if c.isDigit then some (c.toNat - '0'.toNat)
  else if 'a' ≤ c.toLower && c.toLower ≤ 'f' then some (c.toLower.toNat - 'a'.toNat + 10)
  else none

/-- The character that a letter after a backslash stands for. -/
def escaped? (c : Char) : Option Char :=
  match c with
  | 'b' => some (.ofNat 0x08)
  | 't' => some '\t'
  | 'n' => some '\n'
  | 'f' => some (.ofNat 0x0C)
  | 'r' => some '\r'
  | '"' => some '"'
  | '\\' => some '\\'
  | _ => none

/-- How a string is written. -/
structure Style where
  quote : Char
  escapes : Bool
  multiline : Bool

/-- What the character ahead belongs to. -/
inductive Mode where
  | plain
  | escape
  /-- A numeric escape with digits still to come. -/
  | code (digits value : Nat)
  /-- Blanks after a backslash at the end of a line, which end with a line end or after it. -/
  | fold (newline : Bool)

/-- What becomes of the character ahead. -/
inductive StringStep where
  | refuse
  /-- The string goes on, with a character more or none. -/
  | go (mode : Mode) (read : Option Char)
  /-- The closing quotes begin, after `extra` quotes that belong to the text. -/
  | close (extra : Nat)

/-- Is a line end ahead? -/
def atLineEnd (c : Char) (rest : List Char) : Bool :=
  c == '\n' || (c == '\r' && rest.head? == some '\n')

/-- What becomes of a character outside escapes. -/
def plainStep (style : Style) (c : Char) (rest : List Char) : StringStep :=
  if c = style.quote then
    if !style.multiline then .close 0
    else
      -- one or two quotes before the closing ones belong to the text
      match (rest.take 4).takeWhile (· == c) with
      | _ :: _ :: extra => .close extra.length
      | _ => .go .plain (some c)
  else if c = '\\' && style.escapes then .go .escape none
  else if atLineEnd c rest then
    if style.multiline then .go .plain (if c = '\n' then some c else none) else .refuse
  else if isCommentChar c then .go .plain (some c)
  else .refuse

/-- What becomes of a character. -/
def stringStep (style : Style) (mode : Mode) (c : Char) (rest : List Char) : StringStep :=
  match mode with
  | .plain => plainStep style c rest
  | .escape =>
    if c = 'u' then .go (.code 4 0) none
    else if c = 'U' then .go (.code 8 0) none
    else if style.multiline && (isSpace c || atLineEnd c rest) then .go (.fold (c == '\n')) none
    else
      match escaped? c with
      | some c => .go .plain (some c)
      | none => .refuse
  | .code digits value =>
    match hexValue? c with
    | none => .refuse
    | some digit =>
      let value := 16 * value + digit
      if 1 < digits then .go (.code (digits - 1) value) none
      else if value.isValidChar then .go .plain (some (.ofNat value))
      else .refuse
  | .fold newline =>
    if isSpace c || atLineEnd c rest then .go (.fold (newline || c == '\n')) none
    else if newline then plainStep style c rest
    else .refuse

/-- The text after the opening quotes, up to the closing ones, and what follows; `read` is what
    was read of it, latest character first. -/
def stringBody? (style : Style) : Mode → (read : List Char) → List Char →
    Option (List Char × List Char)
  | _, _, [] => none
  | mode, read, c :: rest =>
    match stringStep style mode c rest with
    | .refuse => none
    | .go mode none => stringBody? style mode read rest
    | .go mode (some c) => stringBody? style mode (c :: read) rest
    | .close extra =>
      some (read.reverse ++ List.replicate extra c,
        if style.multiline then rest.drop (2 + extra) else rest)

/-- A string over several lines; a line end right after the opening quotes is left out. -/
def multiline? (quote : Char) (text : List Char) : Option (String × List Char) :=
  let body :=
    match text with
    | '\n' :: rest => rest
    | '\r' :: '\n' :: rest => rest
    | text => text
  (stringBody? ⟨quote, quote == '"', true⟩ .plain [] body).map fun (read, rest) =>
    (String.ofList read, rest)

/-- A string on one line. -/
def singleLine? (quote : Char) (text : List Char) : Option (String × List Char) :=
  (stringBody? ⟨quote, quote == '"', false⟩ .plain [] text).map fun (read, rest) =>
    (String.ofList read, rest)

/-! ## Keys -/

/-- May `c` stand in a key without quotes? -/
def isBareChar (c : Char) : Bool := c.isAlphanum || c == '_' || c == '-'

/-- A key without dots. -/
def simpleKey? (text : List Char) : Option (String × List Char) :=
  match text with
  | '"' :: rest => singleLine? '"' rest
  | '\'' :: rest => singleLine? '\'' rest
  | text =>
    match text.takeWhile isBareChar with
    | [] => none
    | key => some (String.ofList key, text.dropWhile isBareChar)

/-- A key of at most `fuel` parts: those before the last, and the last. -/
def key? : (fuel : Nat) → List Char → Option ((List String × String) × List Char)
  | 0, _ => none
  | fuel + 1, text =>
    (simpleKey? (skipSpaces text)).bind fun (first, rest) =>
      match skipSpaces rest with
      | '.' :: rest =>
        (key? fuel rest).map fun ((path, last), rest) => ((first :: path, last), rest)
      | rest => some (([], first), rest)

/-! ## Numbers -/

/-- Digits without the underscores between them. -/
def grouped? (isDigit : Char → Bool) : (afterDigit : Bool) → List Char → Option (List Char)
  | afterDigit, [] => if afterDigit then some [] else none
  | afterDigit, c :: rest =>
    if isDigit c then (grouped? isDigit true rest).map (c :: ·)
    else if c = '_' && afterDigit then grouped? isDigit false rest
    else none

/-- Digits without underscores that do not begin with a needless zero. -/
def wholePart? (text : List Char) : Option (List Char) :=
  match grouped? Char.isDigit false text with
  | some ('0' :: _ :: _) => none
  | digits => digits

/-- A natural number in a base other than ten, of 63 bits. -/
def based? (base : Nat) (text : List Char) : Option Value :=
  let isDigit (c : Char) := (hexValue? c).any (· < base)
  (grouped? isDigit false text).bind fun digits =>
    let n := digits.foldl (fun n c => base * n + (hexValue? c).getD 0) 0
    if n < Number.power 2 63 then some (.integer n) else none

/-- A decimal integer of 64 bits. -/
def integer? (word : List Char) : Option Value :=
  let (negative, digits) := Number.splitSign word
  (wholePart? digits).bind fun digits =>
    let n := Number.digitsValue digits
    if negative then if n ≤ Number.power 2 63 then some (.integer (-n)) else none
    else if n < Number.power 2 63 then some (.integer n)
    else none

/-- A number with a fraction or an exponent or both.  It must not be too great. -/
def float? (word : List Char) : Option Value :=
  let (negative, body) := Number.splitSign word
  let isWhole (c : Char) := c.isDigit || c == '_'
  let whole := wholePart? (body.takeWhile isWhole)
  let (tail, part) :=
    match body.dropWhile isWhole with
    | '.' :: rest =>
      let digits := grouped? Char.isDigit false (rest.takeWhile isWhole)
      (rest.dropWhile isWhole, digits.map ('.' :: ·))
    | rest => (rest, some [])
  let exponent :=
    match tail with
    | [] => some []
    | c :: rest =>
      let (minus, digits) := Number.splitSign rest
      if c = 'e' || c = 'E' then
        (grouped? Char.isDigit false digits).map fun digits =>
          'e' :: (if minus then '-' :: digits else digits)
      else none
  match whole, part, exponent with
  | some whole, some part, some exponent =>
    if part.isEmpty && exponent.isEmpty then none
    else
      match Number.readDecimal? Number.double negative (whole ++ part ++ exponent) with
      | some (.infinite false) | none => none
      | some x => some (.float x)
  | _, _, _ => none

/-- A value that is a single word. -/
def word? (word : List Char) : Option Value :=
  match String.ofList word with
  | "true" => some (.bool true)
  | "false" => some (.bool false)
  | "inf" | "+inf" => some (.float (.infinite false))
  | "-inf" => some (.float (.infinite true))
  | "nan" | "+nan" | "-nan" => some (.float .nan)
  | _ =>
    match word with
    | '0' :: 'x' :: rest => based? 16 rest
    | '0' :: 'o' :: rest => based? 8 rest
    | '0' :: 'b' :: rest => based? 2 rest
    | word =>
      (integer? word <|> float? word <|>
        (Moment.ofWord? word).map fun moment => .date moment.text)

/-- May `c` stand in a value that is a word? -/
def isWordChar (c : Char) : Bool := isBareChar c || c == '+' || c == '.' || c == ':'

/-- The word a text begins with; a space may stand between a date and a time. -/
def takeWord (text : List Char) : List Char × List Char :=
  let word := text.takeWhile isWordChar
  let rest := text.dropWhile isWordChar
  match Date.read? word, rest with
  | some (_, []), ' ' :: d :: tail =>
    if d.isDigit then
      (word ++ ' ' :: (d :: tail).takeWhile isWordChar, (d :: tail).dropWhile isWordChar)
    else (word, rest)
  | _, _ => (word, rest)

/-! ## Values -/

mutual
/-- A value and what follows.  `fuel` bounds the steps, `depth` the nesting. -/
def value? : (fuel depth : Nat) → List Char → Option (Value × List Char)
  | 0, _, _ => none
  | fuel + 1, depth, text =>
    match text with
    | '"' :: '"' :: '"' :: rest => (multiline? '"' rest).map fun (s, rest) => (.text s, rest)
    | '\'' :: '\'' :: '\'' :: rest => (multiline? '\'' rest).map fun (s, rest) => (.text s, rest)
    | '"' :: rest => (singleLine? '"' rest).map fun (s, rest) => (.text s, rest)
    | '\'' :: rest => (singleLine? '\'' rest).map fun (s, rest) => (.text s, rest)
    | '[' :: rest =>
      if depth = 0 then none
      else (items? fuel (depth - 1) rest).map fun (items, rest) => (.list items, rest)
    | '\x7b' :: rest =>
      if depth = 0 then none
      else
        let pairs :=
          match skipSpaces rest with
          | '\x7d' :: rest => some ([], rest)
          | rest => pairs? fuel (depth - 1) [] rest
        pairs.bind fun (entries, rest) => (plainTable? entries).map (·, rest)
    | text =>
      let (word, rest) := takeWord text
      (word? word).map (·, rest)

/-- The items of an array, a comma after each but perhaps the last, and what follows. -/
def items? : (fuel depth : Nat) → List Char → Option (List Value × List Char)
  | 0, _, _ => none
  | fuel + 1, depth, text =>
    match skipBlank false text with
    | ']' :: rest => some ([], rest)
    | text =>
      (value? fuel depth text).bind fun (first, rest) =>
        match skipBlank false rest with
        | ']' :: rest => some ([first], rest)
        | ',' :: rest => (items? fuel depth rest).map fun (items, rest) => (first :: items, rest)
        | _ => none

/-- The pairs of an inline table, a comma between two, and what follows. -/
def pairs? : (fuel depth : Nat) → Entries → List Char → Option (Entries × List Char)
  | 0, _, _, _ => none
  | fuel + 1, depth, entries, text =>
    (pair? fuel depth text).bind fun ((path, key), value, rest) =>
      (define path key value entries).bind fun entries =>
        match skipSpaces rest with
        | '\x7d' :: rest => some (entries, rest)
        | ',' :: rest => pairs? fuel depth entries rest
        | _ => none

/-- A key, an equals sign and a value, and what follows. -/
def pair? : (fuel depth : Nat) → List Char →
    Option ((List String × String) × Value × List Char)
  | 0, _, _ => none
  | fuel + 1, depth, text =>
    (key? deepest text).bind fun (key, rest) =>
      match rest with
      | '=' :: rest =>
        (value? fuel depth (skipSpaces rest)).map fun (value, rest) => (key, value, rest)
      | _ => none
end

/-! ## Documents -/

/-- A header: its key and what follows the closing bracket. -/
def header? (text : List Char) : Option ((List String × String) × List Char) :=
  (key? deepest text).bind fun (key, rest) => (after? ']' rest).map (key, ·)

/-- A document being read: the whole tree, and the path of the table that pairs go to. -/
structure Reader where
  root : Entries
  current : List String

/-- Reads the line a text begins with: a header or a pair.  `fuel` bounds the steps. -/
def line? (fuel : Nat) (r : Reader) (text : List Char) : Option (Reader × List Char) :=
  match text with
  | '[' :: '[' :: rest => do
    let ((path, key), rest) ← header? rest
    let root ← beginItem path key r.root
    return (⟨root, path ++ [key]⟩, ← lineEnd? (← after? ']' rest))
  | '[' :: rest => do
    let ((path, key), rest) ← header? rest
    let root ← beginTable path key r.root
    return (⟨root, path ++ [key]⟩, ← lineEnd? rest)
  | text => do
    let ((path, key), value, rest) ← pair? fuel deepest text
    let root ← changeAt .passed (fun _ => define path key value) r.current .header r.root
    return (⟨root, r.current⟩, ← lineEnd? rest)

/-- Reads at most `count` lines. -/
def lines? (fuel : Nat) : (count : Nat) → Reader → List Char → Option Entries
  | 0, _, _ => none
  | count + 1, r, text =>
    match skipBlank false text with
    | [] => some r.root
    | text => (line? fuel r text).bind fun (r, rest) => lines? fuel count r rest

/-- The entries of a document, if it is well formed.  A byte order mark is left out. -/
def read? (s : String) : Option (List (String × Value)) :=
  let text :=
    match s.toList with
    | '\uFEFF' :: rest => rest
    | text => text
  let length := text.length
  -- a step of a value takes a character or leads to one that does
  match (lines? (2 * length + 2) (length + 1) ⟨[], []⟩ text).bind plainTable? with
  | some (.table entries) => some entries
  | _ => none

end Compositing.Settings.Toml
