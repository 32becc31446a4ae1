import Compositing.Script.Production
import Compositing.Script.Session

/-! # Compiling scripts

    A compiler is a language and the group of the compositors it creates.  It
    carries out one document at a time over the state of a builder.  What an
    author can get wrong is reported in the session; only a language at odds
    with its actions ends a document early. -/

namespace Compositing.Script

/-- What compiling a document needs to know. -/
structure Compiler where
  language : Language Action
  group : String

namespace Compiler
variable {σ : Type}

/-- The compiler for compositor scripts. -/
def standard (caseSensitive : Bool) (group : String) : Compiler :=
  ⟨Script.language caseSensitive, group⟩

/-- Carries out a document in a fresh session; the summary counts the diagnostics. -/
def compile (c : Compiler) (b : Builder σ) (d : Document) (builder : σ) :
    Except (RunError Inconsistency) Summary × Session σ :=
  let (result, s) := c.language.run (Session.handler b) d (.new c.group builder)
  (result.map fun summary => { summary with errors := s.errors }, s)

/-- Carries out documents one after the other over one builder state, each in a session of
    its own. -/
def compileAll (c : Compiler) (b : Builder σ) : List Document → σ →
    List (Except (RunError Inconsistency) Summary × Session σ) × σ
  | [], builder => ([], builder)
  | d :: rest, builder =>
    let outcome := c.compile b d builder
    let (outcomes, builder) := compileAll c b rest outcome.2.builder
    (outcome :: outcomes, builder)

end Compiler
end Compositing.Script
