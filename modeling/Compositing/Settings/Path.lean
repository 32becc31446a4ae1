import Compositing.Settings.Value

/-! # Paths into settings

    A path such as `compiler.resource_group` or `list[2].name` leads to a
    place in nested settings.  Setting a value makes the place if it is not
    there: what stands in the way of a table or a list gives way to it.

    Keys of tables are the same in small and capital letters.  A table that is
    set is merged into the one that is there, key by key. -/

namespace Compositing.Settings

/-! ## Setting entries -/

/-- A key as it is kept: in small letters.  Beside the ASCII capitals only the Kelvin sign has
    an ASCII letter for its small form. -/
def foldKey (key : String) : String :=
  key.map fun c => if c.toNat = 0x212A then 'k' else c.toLower

mutual
/-- The entries of a table with a key set. -/
def setEntry (entries : List (String × Value)) (key : String) : Value → List (String × Value)
  | .table incoming =>
    let target := (lookup (foldKey key) entries).getD (.table [])
    insert (foldKey key) (mergeEntries target incoming) entries
  | .nothing => insert (foldKey key) .nothing entries
  | .bool on => insert (foldKey key) (.bool on) entries
  | .integer n => insert (foldKey key) (.integer n) entries
  | .float x => insert (foldKey key) (.float x) entries
  | .text s => insert (foldKey key) (.text s) entries
  | .date s => insert (foldKey key) (.date s) entries
  | .list items => insert (foldKey key) (.list items) entries

/-- A value with entries set one after the other; it becomes a table with the first. -/
def mergeEntries (target : Value) : List (String × Value) → Value
  | [] => target
  | (key, value) :: rest => mergeEntries (.table (setEntry target.entries key value)) rest
end

/-! ## Paths -/

/-- A step from a value to one inside it.  Negative indices count from the end. -/
inductive Step where
  | child (key : String)
  | index (i : Int)

/-- A path begins with a key. -/
structure Path where
  root : String
  steps : List Step

namespace Path

/-- May `c` stand in a key of a path? -/
def isKeyChar (c : Char) : Bool := c.isAlphanum || c == ' ' || c == '_' || c == '-'

/-- An index of 64 bits, with spaces around it; of the signs only a minus may stand before it. -/
def index? (text : List Char) : Option Int :=
  let isSpace (c : Char) := c == ' ' || c == '\t'
  let trimmed := ((text.dropWhile isSpace).reverse.dropWhile isSpace).reverse
  let (negative, digits) :=
    match trimmed with
    | '-' :: digits => (true, digits)
    | digits => (false, digits)
  if digits.isEmpty || !digits.all Char.isDigit then none
  else
    let magnitude := Number.digitsValue digits
    if magnitude < Number.power 2 63 then some (if negative then -magnitude else magnitude)
    else if negative && magnitude = Number.power 2 63 then some (-magnitude)
    else none

/-- What is under way while a path is read; characters are kept latest first. -/
inductive Reading where
  | key (read : List Char)
  | index (read : List Char)
  | afterIndex

/-- The key that was read, which must not be empty. -/
def key? (read : List Char) : Option Step :=
  if read.isEmpty then none else some (.child (String.ofList read.reverse))

/-- The steps of a text. -/
def steps? : Reading → List Char → Option (List Step)
  | .key read, [] => (key? read).map ([·])
  | .index _, [] => none
  | .afterIndex, [] => some []
  | .key read, c :: rest =>
    if isKeyChar c then steps? (.key (c :: read)) rest
    else if c = '.' then (key? read).bind fun step => (steps? (.key []) rest).map (step :: ·)
    else if c = '[' then (key? read).bind fun step => (steps? (.index []) rest).map (step :: ·)
    else none
  | .index read, c :: rest =>
    if c = ']' then
      (index? read.reverse).bind fun i => (steps? .afterIndex rest).map (.index i :: ·)
    else steps? (.index (c :: read)) rest
  | .afterIndex, c :: rest =>
    if c = '.' then steps? (.key []) rest
    else if c = '[' then steps? (.index []) rest
    else none

/-- The path that a text spells. -/
def ofText? (s : String) : Option Path :=
  match steps? (.key []) s.toList with
  | some (.child root :: steps) => some ⟨root, steps⟩
  | _ => none

/-! ## Setting values -/

/-- The list with the item at an index changed.  A list that is too short is filled up, at the
    front if the index lies before the first item. -/
def modifyItem (items : List Value) (i : Int) (f : Value → Value) : List Value :=
  let place := if i < 0 then i + items.length else i
  let fromFront := List.replicate (-place).toNat .nothing ++ items
  let filled := fromFront ++ List.replicate (place.toNat + 1 - fromFront.length) .nothing
  filled.modify place.toNat f

/-- A value with the value at the end of a path set. -/
def put (value : Value) : Step → List Step → Value → Value
  | .child key, [], parent => .table (setEntry parent.entries key value)
  | .child key, next :: rest, parent =>
    let inner := (lookup (foldKey key) parent.entries).getD .nothing
    .table (insert (foldKey key) (put value next rest inner) parent.entries)
  | .index i, [], parent => .list (modifyItem parent.items i fun _ => value)
  | .index i, next :: rest, parent => .list (modifyItem parent.items i (put value next rest))

/-- Sets the value at the end of a path. -/
def set (p : Path) (value : Value) (root : Value) : Value := put value (.child p.root) p.steps root

end Path

/-- Sets a key of a settings file, which is a path if it can be one. -/
def setKey (key : String) (value root : Value) : Value :=
  ((Path.ofText? key).getD ⟨key, []⟩).set value root

end Compositing.Settings
