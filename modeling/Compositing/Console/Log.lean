/-! # The log

    What the command line tells beside its result, at five levels.  A
    threshold says down to which level records are shown. -/

namespace Compositing.Console

/-- Levels, the gravest first. -/
inductive Level where
  | error | warn | info | debug | trace
  deriving DecidableEq

namespace Level

def all : List Level := [error, warn, info, debug, trace]

def name : Level → String
  | error => "ERROR"
  | warn => "WARN"
  | info => "INFO"
  | debug => "DEBUG"
  | trace => "TRACE"

/-- Is a record of the level shown under a threshold?  Without one, nothing is. -/
def isShown (level : Level) (threshold : Option Level) : Bool :=
  threshold.any fun last => level.ctorIdx ≤ last.ctorIdx

/-- The threshold that a word asks for, in any case; `off` asks for none. -/
def threshold? (word : String) : Option (Option Level) :=
  let word := word.map Char.toUpper
  if word = "OFF" then some none else (all.find? (·.name == word)).map some

/-- The threshold of a run: what `wanted` asks for, where a word without meaning asks for
    warnings; without it, warnings, and also details if the run is verbose. -/
def threshold (wanted : Option String) (verbose : Bool) : Option Level :=
  match wanted with
  | some word => (threshold? word).getD (some warn)
  | none => some (if verbose then debug else warn)

end Level

/-- A record.  Details tell which part of the program they come from. -/
structure Record where
  level : Level
  origin : Option String
  text : String

/-- A record as a line; a run has one thread. -/
def Record.line (r : Record) : String :=
  let origin := (r.origin.map fun name => "(1) " ++ name ++ ": ").getD ""
  " [" ++ r.level.name ++ "] " ++ origin ++ r.text ++ "\n"

end Compositing.Console
