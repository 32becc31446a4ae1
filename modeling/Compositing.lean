import Compositing.Arguments
import Compositing.Diagnostic
import Compositing.Grammar.Compile
import Compositing.Lexicon
import Compositing.Main
import Compositing.Matcher
import Compositing.Number.Decimal
import Compositing.Number.Numeral
import Compositing.Number.Pattern
import Compositing.Proofs.Grammar.Deriving
import Compositing.Proofs.Grammar.Display
import Compositing.Proofs.Grammar.Drafting
import Compositing.Proofs.Grammar.Emitting
import Compositing.Proofs.Grammar.Faults
import Compositing.Proofs.Grammar.Lexing
import Compositing.Proofs.Grammar.Linking
import Compositing.Proofs.Grammar.Munching
import Compositing.Proofs.Grammar.Patterns
import Compositing.Proofs.Grammar.Refusals
import Compositing.Proofs.Grammar.Resolving
import Compositing.Proofs.Language.Confusion
import Compositing.Proofs.Language.Cutting
import Compositing.Proofs.Language.Handing
import Compositing.Proofs.Language.Indexing
import Compositing.Proofs.Language.Registering
import Compositing.Proofs.Language.Running
import Compositing.Proofs.Number.Longest
import Compositing.Proofs.Number.Rounding
import Compositing.Proofs.Number.Scan
import Compositing.Proofs.Number.Texts
import Compositing.Proofs.Number.Whole
import Compositing.Proofs.Recognition.Agreement
import Compositing.Proofs.Recognition.Ahead
import Compositing.Proofs.Recognition.Casing
import Compositing.Proofs.Recognition.Changing
import Compositing.Proofs.Recognition.Course
import Compositing.Proofs.Recognition.Failures
import Compositing.Proofs.Recognition.Furthest
import Compositing.Proofs.Recognition.Joining
import Compositing.Proofs.Recognition.Lasting
import Compositing.Proofs.Recognition.Leaves
import Compositing.Proofs.Recognition.Lines
import Compositing.Proofs.Recognition.Moving
import Compositing.Proofs.Recognition.Numbers
import Compositing.Proofs.Recognition.Numerals
import Compositing.Proofs.Recognition.Parsing
import Compositing.Proofs.Recognition.Parts
import Compositing.Proofs.Recognition.Peg
import Compositing.Proofs.Recognition.Places
import Compositing.Proofs.Recognition.Regions
import Compositing.Proofs.Recognition.Resync
import Compositing.Proofs.Recognition.Rewinding
import Compositing.Proofs.Recognition.Rounds
import Compositing.Proofs.Recognition.Spans
import Compositing.Proofs.Recognition.Termination
import Compositing.Proofs.Recognition.Trials
import Compositing.Proofs.Recognition.Trivia
import Compositing.Proofs.Recognition.Typing
import Compositing.Proofs.Recognition.Whole
import Compositing.Proofs.Recognition.Writing
import Compositing.Proofs.Recognition.Written
import Compositing.Proofs.Recognition.Yield
import Compositing.Proofs.Scene.Arena
import Compositing.Proofs.Scene.Creation
import Compositing.Proofs.Scene.Fields
import Compositing.Proofs.Scene.Growth
import Compositing.Proofs.Scene.Names
import Compositing.Proofs.Scene.Objects
import Compositing.Proofs.Scene.Stacking
import Compositing.Proofs.Script.Atomicity
import Compositing.Proofs.Script.Attribution
import Compositing.Proofs.Script.Blocks
import Compositing.Proofs.Script.Building
import Compositing.Proofs.Script.Completeness
import Compositing.Proofs.Script.Consistency
import Compositing.Proofs.Script.Describing
import Compositing.Proofs.Script.Description
import Compositing.Proofs.Script.Dispatch
import Compositing.Proofs.Script.GrammarText
import Compositing.Proofs.Script.Integers
import Compositing.Proofs.Script.Isolation
import Compositing.Proofs.Script.Joining
import Compositing.Proofs.Script.Keywords
import Compositing.Proofs.Script.Lasting
import Compositing.Proofs.Script.Misplacement
import Compositing.Proofs.Script.Moving
import Compositing.Proofs.Script.Nesting
import Compositing.Proofs.Script.Outcome
import Compositing.Proofs.Script.Parsing
import Compositing.Proofs.Script.Path
import Compositing.Proofs.Script.Printing
import Compositing.Proofs.Script.Reading
import Compositing.Proofs.Script.Recompiling
import Compositing.Proofs.Script.Renaming
import Compositing.Proofs.Script.Requests
import Compositing.Proofs.Script.Scope
import Compositing.Proofs.Script.Sections
import Compositing.Proofs.Script.Shape
import Compositing.Proofs.Script.Skipping
import Compositing.Proofs.Script.Statements
import Compositing.Proofs.Script.Steps
import Compositing.Proofs.Script.Values
import Compositing.Proofs.Text.Advance
import Compositing.Proofs.Text.Bytes
import Compositing.Proofs.Text.Casing
import Compositing.Proofs.Text.Continuing
import Compositing.Proofs.Text.Cursor
import Compositing.Proofs.Text.Folding
import Compositing.Proofs.Text.Gap
import Compositing.Proofs.Text.Literals
import Compositing.Proofs.Text.Spelling
import Compositing.Proofs.Text.Words
import Compositing.Recognition
import Compositing.Recorder
import Compositing.Scene.Expectation
import Compositing.Scene.Export
import Compositing.Scene.Registry
import Compositing.Script.Compiler
import Compositing.Settings.Layers
import Compositing.Text.Position
