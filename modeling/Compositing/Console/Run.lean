import Compositing.Console.Invocation
import Compositing.Console.Log
import Compositing.Console.Outline
import Compositing.Folder
import Compositing.Scene.Export
import Compositing.Script.Compiler
import Compositing.Settings.Layers

/-! # Runs of the command line

    A run is a function from the words of the command line and the files it
    may read to what it prints and its exit code.  Problems in scripts are
    logged as warnings and do not make a run fail; a script that cannot be
    read does, but the others are compiled all the same. -/

namespace Compositing.Console

/-- What a run leaves. -/
structure Outcome where
  code : Nat
  output : String
  errors : String

/-! ## Messages -/

/-- A record of the log, or a line of its own. -/
inductive Message where
  | record (record : Record)
  | line (text : String)

/-- A message as far as the threshold lets it be shown. -/
def Message.text (threshold : Option Level) : Message → String
  | .record r => if r.level.isShown threshold then r.line else ""
  | .line text => text ++ "\n"

/-- Messages as they are shown. -/
def messagesText (threshold : Option Level) (messages : List Message) : String :=
  String.join (messages.map (Message.text threshold))

/-- A detail about how a script is compiled. -/
def detail (text : String) : Message :=
  .record ⟨.debug, some "compositor_script::script::engine", text⟩

/-- A diagnostic in the log. -/
def warning (d : Diagnostic) : Message :=
  .record ⟨.warn, none, d.text⟩

/-- The wording of refused settings. -/
def settingsMessage : Settings.Error → String
  | .path => "a key is no path"
  | .missingFile => "the file is missing"
  | .malformedFile => "the file is malformed"
  | .type => "a value has the wrong type"
  | .shape => "a table is incomplete"

/-! ## Compiling -/

section
variable {σ : Type}

/-- A session and its messages, latest first. -/
abbrev Logged (σ : Type) := Script.Session σ × List Message

/-- Moves the reports of the session's journal to the messages. -/
def moveReports : Logged σ → Logged σ
  | (s, messages) =>
    ({ s with journal := [] }, (s.journal.filterMap Script.Entry.report?).map warning ++ messages)

/-- A handler that also keeps messages. -/
def logged (h : Handler Action (Script.Session σ) Script.Inconsistency) :
    Handler Action (Logged σ) Script.Inconsistency where
  beginDocument d := fun (s, messages) =>
    let start := "compiling " ++ d.name ++ " (" ++ toString d.text.utf8ByteSize ++ " bytes)"
    (h.beginDocument d s, detail start :: messages)
  dispatch action token arguments := fun (s, messages) =>
    let (result, rest, s) := h.dispatch action token arguments s
    (result, rest, moveReports (s, messages))
  mismatch m := fun (s, messages) =>
    let text := "syntax mismatch at line " ++ toString m.line ++ ": " ++ m.message
    moveReports (h.mismatch m s, detail text :: messages)
  endDocument := fun (s, messages) => moveReports (h.endDocument s, messages)

end

/-- Compiles a script: the registry afterwards, the messages in order, and whether it failed. -/
def compileFile (compiler : Script.Compiler) (files : Files) (path : String) (r : Registry) :
    Registry × List Message × Bool :=
  match files.text path with
  | .error error => (r, [.line ("Cannot read " ++ path ++ ": " ++ error.message)], true)
  | .ok text =>
    let handler := logged (Script.Session.handler Registry.builder)
    let start : Logged Registry := (.new compiler.group r, [])
    match compiler.language.run handler ⟨path, text⟩ start with
    | (.error error, (s, messages)) =>
      let line := path ++ ": " ++ error.message Script.Inconsistency.message
      (s.builder, messages.reverse ++ [.line line], true)
    | (.ok summary, (s, messages)) =>
      let counts :=
        "compiled " ++ path ++ ": " ++ toString summary.statements ++ " statements, "
          ++ toString summary.actions ++ " actions, " ++ toString summary.mismatches
          ++ " mismatches"
      let result :=
        path ++ ": " ++ toString summary.statements ++ " statements, " ++ toString s.errors
          ++ " errors"
      (s.builder, messages.reverse ++ [detail counts, .record ⟨.info, none, result⟩],
        false)

/-- Compiles scripts one after the other into one registry. -/
def compileFiles (compiler : Script.Compiler) (files : Files) :
    List String → Registry → Registry × List Message × Bool
  | [], r => (r, [], false)
  | path :: rest, r =>
    let (r, messages, failed) := compileFile compiler files path r
    let (r, others, otherFailed) := compileFiles compiler files rest r
    (r, messages ++ others, failed || otherFailed)

/-! ## Runs -/

/-- The layers of settings that an invocation asks for. -/
def Invocation.layers (i : Invocation) : List Settings.Layer :=
  (i.config.map fun name => Settings.Layer.file name true).toList
    ++ (if i.caseSensitive then [.key "compiler.case_sensitive" (.bool true)] else [])
    ++ (i.group.map fun name => Settings.Layer.key "compiler.resource_group" (.text name)).toList

/-- Carries out a command: what is printed, the messages, and whether it failed. -/
def Invocation.perform (i : Invocation) (compiler : Script.Compiler) (defaults : Defaults)
    (files : Files) : String × List Message × Bool :=
  match i.command with
  | none => ("", [], true)
  | some .grammar => (compiler.language.grammar.display ++ "\n", [], false)
  | some .keywords => (compiler.language.lexicon.table, [], false)
  | some .compile =>
    let (r, messages, failed) := compileFiles compiler files i.paths (.empty defaults)
    let output :=
      match i.format with
      | .summary => r.outline
      | .json => r.export.pretty ++ "\n"
    (output, messages, failed)

/-- Runs an invocation; `wanted` asks for a threshold of the log. -/
def Invocation.run (i : Invocation) (wanted : Option String) (files : Files) : Outcome :=
  let threshold := Level.threshold wanted i.verbose
  match Settings.load files i.layers with
  | .error error => ⟨1, "", "Configuration error: " ++ settingsMessage error ++ "\n"⟩
  | .ok settings =>
    let compiler := Script.Compiler.standard settings.caseSensitive settings.resourceGroup
    let language := compiler.language
    let built :=
      detail ("built " ++ language.name ++ " language: "
        ++ toString language.grammar.rules.length ++ " rules, "
        ++ toString language.lexicon.entries.length ++ " lexemes")
    let (output, messages, failed) := i.perform compiler settings.defaults files
    ⟨if failed then 1 else 0, output, messagesText threshold (built :: messages)⟩

/-- The program and its version. -/
def versionText : String := "compositorc 0.1.0\n"

/-- How the program is used. -/
def helpText : String :=
  linesText [
    "Compile compositor scripts",
    "",
    "Usage: compositorc [OPTIONS] [COMMAND]",
    "",
    "Commands:",
    "  compile   Compile scripts into one registry and print it",
    "  grammar   Print the compositor grammar",
    "  keywords  Print the keyword table",
    "  help      Print this message or the help of the given subcommand(s)",
    "",
    "Options:",
    "  -v, --verbose          Log at debug level unless RUST_LOG says otherwise",
    "  -c, --config <config>  TOML file layered over the built-in defaults",
    "      --case-sensitive   Match keywords case-sensitively",
    "  -h, --help             Print help",
    "  -V, --version          Print version"]

/-- Runs a command line. -/
def run (words : List String) (wanted : Option String) (files : Files) : Outcome :=
  match Invocation.ofWords words with
  | .ok invocation => invocation.run wanted files
  | .error .refused => ⟨2, "", helpText⟩
  | .error .help => ⟨0, helpText, ""⟩
  | .error .version => ⟨0, versionText, ""⟩

/-- The names of the files that a command line may read. -/
def fileNames (words : List String) : List String :=
  match Invocation.ofWords words with
  | .ok i => i.paths ++ i.config.toList ++ i.config.toList.filterMap Settings.withEnding?
  | .error _ => []

end Compositing.Console
