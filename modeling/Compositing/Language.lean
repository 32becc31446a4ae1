import Compositing.Statement
import Compositing.Arguments
import Compositing.Grammar.Compile

/-! # Languages and running a document

    A language is a grammar linked to its keywords.  Running a document takes
    its statements in order and cuts each into units: a token that begins an
    action and the tokens without action that follow.  Each unit is handed to
    a handler together with a reader that sees the unit's arguments only. -/

namespace Compositing

/-- A script and its name; without a name it is anonymous. -/
structure Document where
  name : String
  text : String

/-- Has the document no name? -/
def Document.isAnonymous (d : Document) : Bool := d.name.isEmpty

/-- A grammar linked to its keywords, whose actions are of type `α`. -/
structure Language (α : Type) where
  name : String
  grammar : Grammar
  lexicon : Lexicon α

namespace Language
variable {α : Type}

/-- Compiles a grammar text against keywords. -/
def compile (name bnf start : String) (lexicon : Lexicon α) :
    Except GrammarError (Language α) :=
  (Grammar.compileLinked lexicon bnf start).map (⟨name, ·, lexicon⟩)

/-- Registers keywords, then compiles a grammar text against them. -/
def build (name bnf start : String) (lexemes : List (String × Nat × Option α))
    (caseSensitive : Bool) : Except GrammarError (Language α) :=
  match (Lexicon.empty caseSensitive).registerAll lexemes with
  | .ok lexicon => compile name bnf start lexicon
  | .error error => .error (.lexeme error)

/-- The events of a text. -/
def events (l : Language α) (text : List Char) : List Event :=
  l.grammar.events l.lexicon.caseSensitive text

end Language

/-! ## Units -/

/-- An action, the token that begins it and its arguments. -/
structure ActionUnit (α : Type) where
  action : α
  token : Token
  arguments : List Token

/-- The reader of a unit's arguments. -/
def ActionUnit.reader {α : Type} (u : ActionUnit α) : Arguments := ⟨u.arguments, u.token.line⟩

/-- Cuts tokens into those before the first action and the units. -/
def ActionUnit.cut {α : Type} (action? : Nat → Option α) :
    List Token → List Token × List (ActionUnit α)
  | [] => ([], [])
  | t :: rest =>
    let (leading, units) := cut action? rest
    match action? t.id with
    | some action => ([], ⟨action, t, leading⟩ :: units)
    | none => (t :: leading, units)

/-! ## Handlers -/

/-- What becomes of the other units of a statement after one of them ran. -/
inductive Flow where
  | continue
  | skipStatement
  deriving DecidableEq

/-- What receives the units and mismatches of a document, with a state of type `σ`.  An error
    of type `ε` ends the document; everything recoverable stays in the state.  Dispatching a
    unit also yields the arguments it left unread. -/
structure Handler (α σ ε : Type) where
  beginDocument : Document → σ → σ
  dispatch : α → Token → Arguments → σ → Except ε Flow × Arguments × σ
  mismatch : Mismatch → σ → σ
  endDocument : σ → σ

/-- What ends a document early: the grammar let a statement begin with a token without
    action, or the handler gave up. -/
inductive RunError (ε : Type) where
  | noAction (token : Token)
  | handler (error : ε)

/-- The wording of an internal inconsistency. -/
def inconsistencyText (line : Nat) (message : String) : String :=
  "internal consistency error at line " ++ toString line ++ ": " ++ message

/-- The wording of an early end, given that of the handler's errors. -/
def RunError.message {ε : Type} (handlerMessage : ε → String) : RunError ε → String
  | .noAction token =>
    inconsistencyText token.line
      ("statement starts with " ++ token.text ++ " which triggers no action")
  | .handler error => handlerMessage error

/-- Counts over a document. -/
structure Summary where
  statements : Nat
  actions : Nat
  mismatches : Nat
  /-- Diagnostics reported, mismatches included. -/
  errors : Nat
  deriving DecidableEq

/-! ## Running -/

namespace Handler
variable {α σ ε : Type} (h : Handler α σ ε)

/-- Hands units to the handler up to an error or a skip; the number of units handed over. -/
def runUnits : List (ActionUnit α) → σ → Except (RunError ε) Nat × σ
  | [], s => (.ok 0, s)
  | u :: rest, s =>
    match h.dispatch u.action u.token u.reader s with
    | (.error error, _, s) => (.error (.handler error), s)
    | (.ok .skipStatement, _, s) => (.ok 1, s)
    | (.ok .continue, _, s) =>
      match runUnits rest s with
      | (.ok count, s) => (.ok (count + 1), s)
      | (.error error, s) => (.error error, s)

/-- Cuts a statement into units and hands them to the handler. -/
def runStatement (action? : Nat → Option α) (statement : Statement) (s : σ) :
    Except (RunError ε) Nat × σ :=
  match ActionUnit.cut action? statement.tokens with
  | ([], units) => h.runUnits units s
  | (token :: _, _) => (.error (.noAction token), s)

/-- Hands events to the handler in order, up to an error; `summary` counts those so far. -/
def runEvents (action? : Nat → Option α) :
    List Event → Summary → σ → Except (RunError ε) Summary × σ
  | [], summary, s => (.ok summary, s)
  | .mismatch m :: rest, summary, s =>
    runEvents action? rest { summary with mismatches := summary.mismatches + 1 } (h.mismatch m s)
  | .statement statement :: rest, summary, s =>
    match h.runStatement action? statement s with
    | (.error error, s) => (.error error, s)
    | (.ok count, s) =>
      runEvents action? rest
        { summary with
          statements := summary.statements + 1
          actions := summary.actions + count } s

end Handler

/-- Runs a document: its beginning, its events, and its end unless an error came first. -/
def Language.run {α σ ε : Type} (l : Language α) (h : Handler α σ ε) (d : Document) (s : σ) :
    Except (RunError ε) Summary × σ :=
  let begun := h.beginDocument d s
  match h.runEvents l.lexicon.action? (l.events d.text.toList) ⟨0, 0, 0, 0⟩ begun with
  | (.ok summary, s) => (.ok summary, h.endDocument s)
  | (.error error, s) => (.error error, s)

end Compositing
