/-! # Invocations

    How the command line is read.  Options come in a long and most also in a
    short form; short flags can be joined, and a value can be attached to its
    option.  Options of the program stand before or after the command, where
    the later place has precedence; nothing is an option after `--`.  No
    option can be given twice in one place. -/

namespace Compositing.Console

/-! ## What is asked for -/

/-- How a compiled registry is shown. -/
inductive Format where
  | summary
  | json
  deriving DecidableEq

/-- The format with a name. -/
def Format.ofName? : String → Option Format
  | "summary" => some .summary
  | "json" => some .json
  | _ => none

/-- What the program can be told to do. -/
inductive Command where
  | compile
  | grammar
  | keywords
  deriving DecidableEq

/-- The command with a name. -/
def Command.ofName? : String → Option Command
  | "compile" => some .compile
  | "grammar" => some .grammar
  | "keywords" => some .keywords
  | _ => none

/-- Options and operands, as far as they are given. -/
structure Given where
  verbose : Bool
  caseSensitive : Bool
  config : Option String
  format : Option Format
  group : Option String
  /-- Latest operand first. -/
  operands : List String

/-- Nothing is given. -/
def Given.nothing : Given := ⟨false, false, none, none, none, []⟩

/-- Is nothing given? -/
def Given.isNothing (g : Given) : Bool :=
  !g.verbose && !g.caseSensitive && g.config.isNone && g.format.isNone && g.group.isNone
    && g.operands.isEmpty

/-- What a run is to do. -/
structure Invocation where
  command : Option Command
  verbose : Bool
  caseSensitive : Bool
  config : Option String
  format : Format
  group : Option String
  paths : List String

/-- What is done instead of a run. -/
inductive Stop where
  | refused
  | help
  | version

/-! ## Options -/

/-- Options without a value. -/
inductive Flag where
  | verbose | caseSensitive | help | version

/-- Options with a value. -/
inductive Valued where
  | config | format | group

/-- An option. -/
inductive Choice where
  | flag (flag : Flag)
  | valued (valued : Valued)

/-- Where an option stands: before the command or after it. -/
abbrev Site := Option Command

/-- The option with a long name. -/
def long? (site : Site) (name : String) : Option Choice :=
  match name, site with
  | "verbose", _ => some (.flag .verbose)
  | "case-sensitive", _ => some (.flag .caseSensitive)
  | "config", _ => some (.valued .config)
  | "help", _ => some (.flag .help)
  | "version", none => some (.flag .version)
  | "format", some .compile => some (.valued .format)
  | "group", some .compile => some (.valued .group)
  | _, _ => none

/-- The option with a short name. -/
def short? (site : Site) (name : Char) : Option Choice :=
  match name, site with
  | 'v', _ => some (.flag .verbose)
  | 'c', _ => some (.valued .config)
  | 'h', _ => some (.flag .help)
  | 'V', none => some (.flag .version)
  | 'f', some .compile => some (.valued .format)
  | 'g', some .compile => some (.valued .group)
  | _, _ => none

/-- Gives a flag, which must not be given yet. -/
def Given.setFlag (g : Given) : Flag → Except Stop Given
  | .verbose => if g.verbose then .error .refused else .ok { g with verbose := true }
  | .caseSensitive =>
    if g.caseSensitive then .error .refused else .ok { g with caseSensitive := true }
  | .help => .error .help
  | .version => .error .version

/-- Gives an option a value, which it must not have yet. -/
def Given.setValue (g : Given) (value : String) : Valued → Except Stop Given
  | .config => if g.config.isSome then .error .refused else .ok { g with config := some value }
  | .group => if g.group.isSome then .error .refused else .ok { g with group := some value }
  | .format =>
    match g.format, Format.ofName? value with
    | none, some format => .ok { g with format := some format }
    | _, _ => .error .refused

/-! ## Reading -/

/-- What was given, and an option that still waits for its value. -/
abbrev Partial := Given × Option Valued

/-- Reads a word of short options. -/
def readShort (site : Site) : Given → List Char → Except Stop Partial
  | g, [] => .ok (g, none)
  | g, name :: rest =>
    match short? site name with
    | none => .error .refused
    | some (.flag flag) => (g.setFlag flag).bind fun g => readShort site g rest
    | some (.valued valued) =>
      match rest with
      | [] => .ok (g, some valued)
      | '=' :: value => (g.setValue (String.ofList value) valued).map (·, none)
      | value => (g.setValue (String.ofList value) valued).map (·, none)

/-- Reads a long option, perhaps with a value after an equals sign. -/
def readLong (site : Site) (g : Given) (text : List Char) : Except Stop Partial :=
  let name := String.ofList (text.takeWhile (· != '='))
  match long? site name, text.dropWhile (· != '=') with
  | some (.flag flag), [] => (g.setFlag flag).map (·, none)
  | some (.valued valued), [] => .ok (g, some valued)
  | some (.valued valued), _ :: value => (g.setValue (String.ofList value) valued).map (·, none)
  | _, _ => .error .refused

/-- What a word is. -/
inductive Word where
  | separator
  | long (text : List Char)
  | short (text : List Char)
  | operand

/-- Sorts a word; a lone minus is an operand. -/
def Word.of (word : String) : Word :=
  match word.toList with
  | ['-', '-'] => .separator
  | '-' :: '-' :: text => .long text
  | '-' :: c :: text => .short (c :: text)
  | _ => .operand

/-- Reads the words of a site up to the command, if one follows: what is given, and the command
    with the words after it. -/
def readSite (site : Site) :
    (onlyOperands : Bool) → Partial → List String →
      Except Stop (Given × Option (Command × List String))
  | _, (_, some _), [] => .error .refused
  | _, (g, none), [] => .ok (g, none)
  | onlyOperands, (g, waiting), word :: rest =>
    let operand : Except Stop Partial :=
      match waiting, site with
      | some valued, _ => (g.setValue word valued).map (·, none)
      | none, some .compile => .ok ({ g with operands := word :: g.operands }, none)
      | none, _ => .error .refused
    let read (onlyOperands : Bool) (result : Except Stop Partial) :=
      match result with
      | .ok given => readSite site onlyOperands given rest
      | .error stop => .error stop
    if onlyOperands then read true operand
    else
      match Word.of word, waiting, site with
      | .operand, none, none =>
        match Command.ofName? word with
        | some command => .ok (g, some (command, rest))
        | none =>
          if word = "help" then
            match rest with
            | [] => .error .help
            | [topic] =>
              .error (if topic = "help" || (Command.ofName? topic).isSome then .help else .refused)
            | _ => .error .refused
          else .error .refused
      | .operand, _, _ => read false operand
      | _, some _, _ => .error .refused
      | .separator, none, _ => read true (.ok (g, none))
      | .long text, none, _ => read false (readLong site g text)
      | .short text, none, _ => read false (readShort site g text)

/-- The invocation that is given before and after the command. -/
def Invocation.of (command : Option Command) (before after : Given) : Invocation where
  command := command
  verbose := before.verbose || after.verbose
  caseSensitive := before.caseSensitive || after.caseSensitive
  config := after.config <|> before.config
  format := after.format.getD .summary
  group := after.group
  paths := after.operands.reverse

/-- Reads a command line.  Without a command something must be given, and compiling needs
    operands. -/
def Invocation.ofWords (words : List String) : Except Stop Invocation :=
  match readSite none false (.nothing, none) words with
  | .error stop => .error stop
  | .ok (before, none) =>
    if before.isNothing then .error .refused else .ok (.of none before .nothing)
  | .ok (before, some (command, rest)) =>
    match readSite (some command) false (.nothing, none) rest with
    | .error stop => .error stop
    | .ok (after, _) =>
      if command = .compile && after.operands.isEmpty then .error .refused
      else .ok (.of (some command) before after)

end Compositing.Console
