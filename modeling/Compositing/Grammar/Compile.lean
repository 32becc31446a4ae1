import Compositing.Grammar.Draft
import Compositing.Grammar.Element

/-! # From text to grammar

    Compiling reads the rules, checks that their names are distinct and the
    start rule is there, and resolves every reference; the first failure in
    this order is reported, and within it the first in the order of the text.
    Linking then gives token ids to the terminals that can emit. -/

namespace Compositing

/-- Why a grammar was refused. -/
inductive GrammarError where
  | unrecognised (text : String) (line : Nat)
  | malformedRule (error : Grammar.RuleError)
  | duplicateRule (name : String)
  | undefinedRule (rule reference : String)
  | missingStart (name : String)
  | unknownTerminal (rule text : String)
  | lexeme (error : LexemeError)

/-- The wording of a refusal. -/
def GrammarError.message : GrammarError → String
  | .unrecognised text line =>
    "unrecognised BNF input '" ++ text ++ "' at line " ++ toString line
  | .malformedRule error =>
    "malformed rule <" ++ error.rule ++ "> at line " ++ toString error.line ++ ": "
      ++ error.fault.message
  | .duplicateRule name => "rule <" ++ name ++ "> is defined more than once"
  | .undefinedRule rule reference =>
    "rule <" ++ rule ++ "> references undefined rule <" ++ reference ++ ">"
  | .missingStart name => "start rule <" ++ name ++ "> is not defined"
  | .unknownTerminal rule text =>
    "terminal '" ++ text ++ "' in rule <" ++ rule ++ "> has no registered lexeme"
  | .lexeme error => error.message

namespace Grammar

/-! ## Resolving references -/

/-- A group whose body is a single element is that element. -/
def groupBody : List (List Element) → Element
  | [[only]] => only
  | alternatives => .choice alternatives

section Resolve
variable (ids : String → Option Nat)

mutual

/-- An element with its references resolved, or the first name that is not defined. -/
def resolve : Draft → Except String Element
  | .terminal text emits => .ok (.terminal text emits none)
  | .rule name =>
    match ids name with
    | some id => .ok (.rule name id)
    | none => .error name
  | .repeated body => (resolveAlternatives body).map fun body => .repeated (groupBody body)
  | .optional body => (resolveAlternatives body).map fun body => .optional (groupBody body)
  | .notAhead body => (resolveAlternatives body).map fun body => .notAhead (groupBody body)
  | .number name => .ok (.number name)
  | .label name => .ok (.label name)
  | .run chars negated => .ok (.run chars negated)

/-- A sequence with its references resolved, in order. -/
def resolveSequence : List Draft → Except String (List Element)
  | [] => .ok []
  | element :: rest =>
    match resolve element with
    | .error name => .error name
    | .ok element => (resolveSequence rest).map (element :: ·)

/-- Alternatives with their references resolved, in order. -/
def resolveAlternatives : List (List Draft) → Except String (List (List Element))
  | [] => .ok []
  | sequence :: rest =>
    match resolveSequence sequence with
    | .error name => .error name
    | .ok sequence => (resolveAlternatives rest).map (sequence :: ·)

end

/-- A rule with its references resolved. -/
def resolveRule (draft : RuleDraft) : Except GrammarError Rule :=
  match resolveAlternatives ids draft.alternatives with
  | .ok alternatives => .ok ⟨draft.name, alternatives⟩
  | .error reference => .error (.undefinedRule draft.name reference)

end Resolve

/-! ## Compiling -/

/-- The first name that repeats an earlier one. -/
def repeatedName? : (seen : List String) → List String → Option String
  | _, [] => none
  | seen, name :: rest =>
    if seen.contains name then some name else repeatedName? (name :: seen) rest

/-- The rules of a grammar text as written. -/
def drafts? (text : String) : Except GrammarError (List RuleDraft) :=
  match Symbol.ofText? text.toList with
  | .error stray => .error (.unrecognised stray.text stray.line)
  | .ok symbols => (RuleDraft.ofSymbols? symbols).mapError .malformedRule

/-- The grammar of drafted rules with the given start rule. -/
def ofDrafts (drafts : List RuleDraft) (start : String) : Except GrammarError Grammar :=
  let names := drafts.map (·.name)
  match repeatedName? [] names with
  | some name => .error (.duplicateRule name)
  | none =>
    let ids name := names.findIdx? (· == name)
    match ids start with
    | none => .error (.missingStart start)
    | some start => (drafts.mapM (resolveRule ids)).map (⟨·, start⟩)

/-- The grammar of a text with the given start rule. -/
def compile (text start : String) : Except GrammarError Grammar :=
  drafts? text >>= (ofDrafts · start)

/-! ## Linking -/

section Link
variable {α : Type} (lexicon : Lexicon α)

mutual

/-- An element with token ids for the terminals that can emit, or the first text without a
    keyword.  Nothing inside a lookahead emits, so its body stays as it is. -/
def linkElement : Element → Except String Element
  | .terminal text true _ =>
    match lexicon.lookup text with
    | some entry => .ok (.terminal text true (some entry.id))
    | none => .error text
  | .repeated body => (linkElement body).map .repeated
  | .optional body => (linkElement body).map .optional
  | .choice alternatives => (linkAlternatives alternatives).map .choice
  | other => .ok other

/-- A linked sequence. -/
def linkSequence : List Element → Except String (List Element)
  | [] => .ok []
  | element :: rest =>
    match linkElement element with
    | .error text => .error text
    | .ok element => (linkSequence rest).map (element :: ·)

/-- Linked alternatives. -/
def linkAlternatives : List (List Element) → Except String (List (List Element))
  | [] => .ok []
  | sequence :: rest =>
    match linkSequence sequence with
    | .error text => .error text
    | .ok sequence => (linkAlternatives rest).map (sequence :: ·)

end

/-- A linked rule. -/
def linkRule (rule : Rule) : Except GrammarError Rule :=
  match linkAlternatives lexicon rule.alternatives with
  | .ok alternatives => .ok { rule with alternatives }
  | .error text => .error (.unknownTerminal rule.name text)

/-- The grammar with token ids for the terminals that can emit. -/
def link (g : Grammar) : Except GrammarError Grammar :=
  (g.rules.mapM (linkRule lexicon)).map fun rules => { g with rules }

/-- Compiles and links a grammar text. -/
def compileLinked (text start : String) : Except GrammarError Grammar :=
  compile text start >>= link lexicon

end Link
end Grammar
end Compositing
