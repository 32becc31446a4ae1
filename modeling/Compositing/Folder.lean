/-! # Folders

    Where scripts and settings are read from.  A name leads through folders,
    part by part: a single point stays where it is, a double point leads back,
    and a slash at the end is like a single point after it. -/

namespace Compositing

/-- Why a file was not read. -/
inductive FileError where
  | missing
  | isFolder
  | insideFile
  | longName
  /-- The bytes are no UTF-8 text. -/
  | notText
  | other (reason : String)

/-- The wording of a failed read. -/
def FileError.message : FileError → String
  | .missing => "No such file or directory (os error 2)"
  | .isFolder => "Is a directory (os error 21)"
  | .insideFile => "Not a directory (os error 20)"
  | .longName => "File name too long (os error 36)"
  | .notText => "stream did not contain valid UTF-8"
  | .other reason => reason

/-- What is read under a name. -/
structure Files where
  bytes : String → Except FileError ByteArray
  /-- Is there a file of this name that keeps what it holds? -/
  isFile : String → Bool

/-- The text of a file. -/
def Files.text (files : Files) (name : String) : Except FileError String :=
  match files.bytes name with
  | .error error => .error error
  | .ok bytes =>
    match String.fromUTF8? bytes with
    | some text => .ok text
    | none => .error .notText

/-! ## Folders in memory -/

/-- Files by their names inside the folder. -/
structure Folder where
  files : List (String × ByteArray)

namespace Folder

/-- Where a name has led; the latest part of a path comes first. -/
inductive Place where
  | inside (path : List String)
  /-- So many folders above. -/
  | above (levels : Nat)
  /-- From the root of the machine. -/
  | rooted (path : List String)
  /-- Where nothing is known to be. -/
  | elsewhere

/-- What can be at a place. -/
inductive Entry where
  | file (bytes : ByteArray)
  /-- Nothing is ever read from it. -/
  | device
  | folder
  | nothing

/-- The parts of the name of a file in the folder. -/
def parts (name : String) : List String :=
  (name.splitOn "/").filter fun part => part != "" && part != "."

/-- The folders at the root of any machine. -/
def rootFolders : List String :=
  ["bin", "dev", "etc", "home", "lib", "proc", "root", "sys", "tmp", "usr", "var"]

/-- What is at a place.  Outside the folder only what any machine has is known. -/
def entry (folder : Folder) : Place → Entry
  | .inside path =>
    let path := path.reverse
    match folder.files.find? (parts ·.1 == path) with
    | some (_, bytes) => .file bytes
    | none =>
      if path.isEmpty || folder.files.any (path.isPrefixOf <| parts ·.1) then .folder else .nothing
  | .above _ => .folder
  | .rooted [] => .folder
  | .rooted [name] => if rootFolders.contains name then .folder else .nothing
  | .rooted path => if path = ["null", "dev"] then .device else .nothing
  | .elsewhere => .nothing

/-- The place that a part of a name leads to from a folder. -/
def Place.enter (part : String) : Place → Place
  | .inside path =>
    if part = ".." then
      match path with
      | [] => .above 1
      | _ :: outer => .inside outer
    else .inside (part :: path)
  | .above levels => if part = ".." then .above (levels + 1) else .elsewhere
  | .rooted path => .rooted (if part = ".." then path.drop 1 else part :: path)
  | .elsewhere => .elsewhere

/-- The longest part of a name, and the longest name, in bytes. -/
def longestPart : Nat := 255
def longestName : Nat := 4095

/-- Follows parts of a name to what is there, which is not nothing. -/
def follow (folder : Folder) : Place → List String → Except FileError Entry
  | place, [] =>
    match folder.entry place with
    | .nothing => .error .missing
    | entry => .ok entry
  | place, part :: rest =>
    match folder.entry place with
    | .nothing => .error .missing
    | .file _ | .device => .error .insideFile
    | .folder =>
      if part = "." then follow folder place rest
      else if longestPart < part.utf8ByteSize then .error .longName
      else follow folder (place.enter part) rest

/-- The parts of a name, one after the other. -/
def steps (name : String) : List String :=
  match (name.splitOn "/").reverse with
  | "" :: before => (before.reverse.filter (· != "")) ++ ["."]
  | parts => parts.reverse.filter (· != "")

/-- What is found under a name; an empty one is no name. -/
def find (folder : Folder) (name : String) : Except FileError Entry :=
  if name = "" then .error .missing
  else if longestName < name.utf8ByteSize then .error .longName
  else
    folder.follow (if name.startsWith "/" then .rooted [] else .inside []) (steps name)

/-- The bytes under a name. -/
def read (folder : Folder) (name : String) : Except FileError ByteArray :=
  match folder.find name with
  | .ok (.file bytes) => .ok bytes
  | .ok .device => .ok .empty
  | .ok .folder => .error .isFolder
  | .ok .nothing => .error .missing
  | .error error => .error error

/-- The folder as what is read under a name. -/
def asFiles (folder : Folder) : Files where
  bytes := folder.read
  isFile name :=
    match folder.find name with
    | .ok (.file _) => true
    | _ => false

end Folder
end Compositing
