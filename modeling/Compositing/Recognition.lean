import Compositing.Number.Numeral
import Compositing.Text.Position
import Compositing.Grammar.Element

/-! # Recognition

    Walking the elements of a grammar over a text.  Recognition is greedy and
    deterministic: alternatives are tried in order and the first success wins,
    a repetition takes as many as it can, and a lookahead takes nothing and
    succeeds where its body fails.  A failed element leaves position and
    tokens as they were, so only the tokens of a complete match are seen.

    Beside the match itself, the furthest offset at which a literal, number,
    label or run was tried in vain is kept: the best place to report. -/

namespace Compositing

/-! ## Leaves -/

namespace Scan

/-- The label a text begins with and how many characters it takes: a nonempty quoted text on
    one line, or a run of characters that are not white space, a brace or a quote. -/
def label (text : List Char) : Option (Nat × String) :=
  match text with
  | '"' :: body =>
    let value := body.takeWhile fun c => c != '"' && c != '\n'
    if !value.isEmpty && (body.drop value.length).head? == some '"' then
      some (value.length + 2, String.ofList value)
    else none
  | _ =>
    let value := text.takeWhile fun c => !Text.isBlank c && c != '{' && c != '}' && c != '"'
    if value.isEmpty then none else some (value.length, String.ofList value)

/-- How many characters form the longest run inside `chars`, or outside if negated, that does
    not reach into a comment. -/
def runLength (chars : List Char) (negated : Bool) (text : List Char) : Nat :=
  go 0 text
where
  go (taken : Nat) : List Char → Nat
    | [] => taken
    | c :: rest =>
      if chars.contains c == negated || (c == '/' && rest.head? == some '/') then taken
      else go (taken + 1) rest

/-- The run a text begins with, without white space at its end, and how many characters it
    takes with it. -/
def run (chars : List Char) (negated : Bool) (text : List Char) : Option (Nat × String) :=
  let length := runLength chars negated text
  let value := Text.trimEnd (text.take length)
  if value.isEmpty then none else some (length, String.ofList value)

/-- The number a text begins with and how many characters it takes. -/
def number (text : List Char) : Option (Nat × Number) :=
  match Number.scan text with
  | some length => (Number.read? Number.double (text.take length)).map (length, ·)
  | none => none

end Scan

namespace Recognition

/-! ## Attempts -/

/-- How far a match has come: the position, the tokens emitted, latest first, and the furthest
    offset at which a leaf failed. -/
structure Progress where
  position : Position
  tokens : List Token
  furthest : Nat

/-- The end of an attempt.  A failure keeps nothing but the furthest failure. -/
inductive Attempt where
  | matched (progress : Progress)
  | failed (furthest : Nat)

/-- A leaf after white space and comments: `scan` says how many characters it takes and what
    token it yields.  Inside a lookahead nothing is emitted and no failure is noted. -/
def leaf (emitting : Bool) (scan : List Char → Option (Nat × Option Token.Kind))
    (p : Progress) : Attempt :=
  let here := p.position.skipTrivia
  match scan here.rest with
  | none => .failed (if emitting then max p.furthest here.offset else p.furthest)
  | some (length, kind?) =>
    let tokens :=
      match kind? with
      | some kind => if emitting then ⟨kind, here.offset, here.line⟩ :: p.tokens else p.tokens
      | none => p.tokens
    .matched { p with position := here.advance length, tokens }

/-- Repeats an attempt until it fails or does not advance.  Every round but the last takes a
    character, so the characters of `room` bound the rounds. -/
def iterate (attempt : Progress → Attempt) (room : List Char) (p : Progress) : Progress :=
  match attempt p with
  | .failed furthest => { p with furthest }
  | .matched q =>
    if q.position.offset = p.position.offset then q
    else
      match room with
      | [] => q
      | _ :: room => iterate attempt room q

/-! ## Elements -/

section Elements
variable (caseSensitive : Bool) (call : Bool → Nat → Progress → Attempt)

mutual

/-- Tries an element; `call` tries a rule by its index. -/
def element (emitting : Bool) : Element → Progress → Attempt
  | .terminal text emits token, p =>
    let kind? := if emits then token.map Token.Kind.keyword else none
    leaf emitting
      (fun rest => (Lexeme.matchLiteral caseSensitive text.toList rest).map (·, kind?)) p
  | .rule _ id, p => call emitting id p
  | .repeated body, p =>
    .matched (iterate (element emitting body) p.position.rest p)
  | .optional body, p =>
    match element emitting body p with
    | .matched q => .matched q
    | .failed furthest => .matched { p with furthest }
  | .notAhead body, p =>
    match element false body p with
    | .matched _ => .failed p.furthest
    | .failed _ => .matched p
  | .choice list, p => alternatives emitting list p
  | .number _, p =>
    leaf emitting (fun rest => (Scan.number rest).map fun (n, x) => (n, some (.number x))) p
  | .label _, p =>
    leaf emitting (fun rest => (Scan.label rest).map fun (n, s) => (n, some (.label s))) p
  | .run chars negated, p =>
    leaf emitting
      (fun rest => (Scan.run chars.toList negated rest).map fun (n, s) => (n, some (.label s))) p

/-- Tries elements one after the other. -/
def sequence (emitting : Bool) : List Element → Progress → Attempt
  | [], p => .matched p
  | first :: rest, p =>
    match element emitting first p with
    | .matched q => sequence emitting rest q
    | .failed furthest => .failed furthest

/-- Tries sequences up to the first that matches. -/
def alternatives (emitting : Bool) : List (List Element) → Progress → Attempt
  | [], p => .failed p.furthest
  | first :: rest, p =>
    match sequence emitting first p with
    | .matched q => .matched q
    | .failed furthest => alternatives emitting rest { p with furthest }

end
end Elements

/-! ## Rules -/

/-- How many rules may be under way inside one another. -/
def maxRuleDepth : Nat := 128

/-- Tries a rule with at most `depth` rules under way; a deeper one fails. -/
def rule (g : Grammar) (caseSensitive : Bool) : (depth : Nat) → Bool → Nat → Progress → Attempt
  | 0, _, _, p => .failed p.furthest
  | depth + 1, emitting, id, p =>
    match g.rule? id with
    | some r => alternatives caseSensitive (rule g caseSensitive depth) emitting r.alternatives p
    | none => .failed p.furthest

end Recognition

/-! ## Outcomes -/

/-- The outcome of matching at a place: where the match ends, or the place itself if there is
    none, with the tokens in order and the furthest failure. -/
structure Recognition where
  matched : Bool
  position : Position
  tokens : List Token
  furthest : Nat

namespace Recognition

/-- The outcome of an attempt at `place`.  Failures count from the offset `from`. -/
def ofAttempt (attempt : Progress → Attempt) (place : Position) (startingAt : Nat) :
    Recognition :=
  match attempt ⟨place, [], startingAt⟩ with
  | .matched p => ⟨true, p.position, p.tokens.reverse, p.furthest⟩
  | .failed furthest => ⟨false, place, [], furthest⟩

end Recognition

namespace Grammar

/-- Matches an element at a position. -/
def recognize (g : Grammar) (caseSensitive : Bool) (e : Element) (place : Position)
    (startingAt : Nat) : Recognition :=
  Recognition.ofAttempt
    (Recognition.element caseSensitive
      (Recognition.rule g caseSensitive Recognition.maxRuleDepth) true e)
    place startingAt

/-- Matches an element at byte `offset` of `text`, with lines counted from `line`. -/
def recognizeAt (g : Grammar) (caseSensitive : Bool) (e : Element) (text : List Char)
    (offset line : Nat) : Recognition :=
  g.recognize caseSensitive e (Position.seek text offset line) offset

/-- Matches a rule at byte `offset` of `text`, or at its end. -/
def recognizeRuleAt (g : Grammar) (caseSensitive : Bool) (id : Nat) (text : List Char)
    (offset : Nat) : Recognition :=
  let place := (Position.start text).advanceBytes offset
  Recognition.ofAttempt
    (Recognition.rule g caseSensitive Recognition.maxRuleDepth true id) place place.offset

end Grammar
end Compositing
