import Compositing.Folder
import Compositing.Scene.Object
import Compositing.Settings.Toml

/-! # Layers of settings

    Settings begin with the built-in ones.  Files are laid over them in order,
    and single keys over all files.  Only then are the values read: a key
    that nobody asks for does no harm, whatever its value. -/

namespace Compositing

/-- What the compiler can be told. -/
structure Settings where
  /-- The group of every compositor that is created. -/
  resourceGroup : String
  /-- Does case count in keywords? -/
  caseSensitive : Bool
  defaults : Defaults
  deriving DecidableEq

namespace Settings

/-- The built-in settings. -/
def standard : Settings := ⟨"General", false, .standard⟩

/-- What stands over the built-in settings. -/
inductive Layer where
  /-- A file; one that is not required may be missing. -/
  | file (name : String) (required : Bool)
  | key (key : String) (value : Value)

/-- Why settings were refused. -/
inductive Error where
  /-- A key that is no path. -/
  | path
  | missingFile
  | malformedFile
  /-- A value of the wrong type or out of range. -/
  | type
  /-- Something other than a table where a table is needed, or a key left out. -/
  | shape

/-! ## Laying over -/

/-- The built-in settings as values. -/
def builtIn : Value :=
  let natural (n : Nat) : Value := .integer n
  .table [
    ("compiler",
      .table [("resource_group", .text standard.resourceGroup),
        ("case_sensitive", .bool standard.caseSensitive)]),
    ("defaults",
      .table [("material_scheme", .text standard.defaults.materialScheme),
        ("first_render_queue", natural standard.defaults.firstRenderQueue.toNat),
        ("last_render_queue", natural standard.defaults.lastRenderQueue.toNat),
        ("lod_bias", .float standard.defaults.lodBias),
        ("visibility_mask", natural standard.defaults.visibilityMask.toNat)])]

/-- A name with the ending of settings files after its last part, unless that leads back.  Single
    points and slashes at the end are no parts. -/
def withEnding? (name : String) : Option String :=
  match (name.splitOn "/").reverse.dropWhile fun part => part == "" || part == "." with
  | [] => none
  | last :: before =>
    if last = ".." then none
    else some ("/".intercalate ((last ++ ".toml") :: before).reverse)

/-- The name under which a file is found: its own, or else with the ending of settings files. -/
def findFile? (files : Files) (name : String) : Option String :=
  if files.isFile name then some name else (withEnding? name).filter files.isFile

/-- Lays a file over values. -/
def layFile (files : Files) (name : String) (required : Bool) (root : Value) :
    Except Error Value :=
  match (findFile? files name).map files.text with
  | some (.ok text) =>
    match Toml.read? text with
    | some entries => .ok (entries.foldl (fun root (key, value) => setKey key value root) root)
    | none => .error .malformedFile
  | _ => if required then .error .missingFile else .ok root

/-- The paths of all keys among the layers, with their values. -/
def keyed (layers : List Layer) : Except Error (List (Path × Value)) :=
  (layers.filterMap fun
    | .key key value => some (key, value)
    | .file _ _ => none).mapM fun (key, value) =>
      match Path.ofText? key with
      | some path => .ok (path, value)
      | none => .error .path

/-- The built-in values with the layers over them. -/
def lay (files : Files) (layers : List Layer) : Except Error Value := do
  let keys ← keyed layers
  let root ← layers.foldlM (fun root layer =>
    match layer with
    | .file name required => layFile files name required root
    | .key _ _ => .ok root) builtIn
  return keys.foldl (fun root (path, value) => path.set value root) root

/-! ## Reading -/

/-- The value of a field: by its key in a table, by its place in a list. -/
def field? (v : Value) (place : Nat) (key : String) : Option Value :=
  match v with
  | .table entries => lookup key entries
  | .list items => items[place]?
  | _ => none

/-- Reads a field if it is there. -/
def typed {α : Type} (v : Value) (place : Nat) (key : String) (as? : Value → Option α) :
    Except Error (Option α) :=
  match field? v place key with
  | none => .ok none
  | some value =>
    match as? value with
    | some x => .ok (some x)
    | none => .error .type

/-- A field that must be there. -/
def needed {α : Type} : Option α → Except Error α
  | some x => .ok x
  | none => .error .shape

/-- Reads the defaults for new objects. -/
def readDefaults (v : Value) : Except Error Defaults := do
  let scheme ← typed v 0 "material_scheme" Value.asText?
  let first ← typed v 1 "first_render_queue" (Value.asBounded? UInt8.size)
  let last ← typed v 2 "last_render_queue" (Value.asBounded? UInt8.size)
  let bias ← typed v 3 "lod_bias" Value.asNumber?
  let mask ← typed v 4 "visibility_mask" (Value.asBounded? UInt32.size)
  return {
    materialScheme := ← needed scheme
    firstRenderQueue := UInt8.ofNat (← needed first)
    lastRenderQueue := UInt8.ofNat (← needed last)
    lodBias := (← needed bias).convert Number.single
    visibilityMask := UInt32.ofNat (← needed mask) }

/-- Reads settings. -/
def read (root : Value) : Except Error Settings := do
  let compiler ← needed (field? root 0 "compiler")
  let group ← typed compiler 0 "resource_group" Value.asText?
  let caseSensitive ← typed compiler 1 "case_sensitive" Value.asBool?
  let group ← needed group
  let caseSensitive ← needed caseSensitive
  return ⟨group, caseSensitive, ← readDefaults (← needed (field? root 1 "defaults"))⟩

/-- The settings that layers make. -/
def load (files : Files) (layers : List Layer) : Except Error Settings :=
  (lay files layers).bind read

end Settings
end Compositing
