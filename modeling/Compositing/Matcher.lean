import Compositing.Recognition
import Compositing.Text.Cursor

/-! # Matchers

    A matcher tries rules and elements over one state: a cursor in the text, a
    buffer for the tokens emitted, the furthest failure, and how many
    lookaheads and rules are under way.  Before something is tried the state is
    marked.  Where it fails the cursor goes back to the mark and the tokens
    emitted since are dropped, so that only those of a complete match stay.

    The same matcher is asked again and again about its text. -/

namespace Compositing

/-- A place to go back to: the cursor's offset and line, and how many tokens there were. -/
structure Mark where
  offset : Nat
  line : Nat
  tokens : Nat

/-- A matcher of `text`. -/
structure Matcher (text : List Char) where
  cursor : Cursor text
  tokens : Array Token
  /-- The furthest offset at which a leaf outside of all lookaheads failed. -/
  furthest : Nat
  /-- How many lookaheads are under way. -/
  lookaheads : Nat
  /-- How many rules are under way. -/
  depth : Nat

namespace Matcher
variable {text : List Char}

/-- A matcher that was not asked anything yet. -/
def new (text : List Char) : Matcher text where
  cursor := .start text
  tokens := #[]
  furthest := 0
  lookaheads := 0
  depth := 0

/-! ## Going back -/

/-- What is needed to go back to this state. -/
def mark (m : Matcher text) : Mark := ⟨m.cursor.offset, m.cursor.line, m.tokens.size⟩

/-- Goes back to a mark and drops the tokens emitted since. -/
def reset (mark : Mark) (m : Matcher text) : Matcher text :=
  { m with cursor := .seek text mark.offset mark.line, tokens := m.tokens.take mark.tokens }

/-- The end of an attempt that was begun in `before`: after a failure the matcher goes back. -/
def settle (before : Matcher text) : Bool × Matcher text → Bool × Matcher text
  | (true, m) => (true, m)
  | (false, m) => (false, m.reset before.mark)

/-! ## Leaves -/

/-- Are tokens emitted and failures noted?  They are not inside a lookahead. -/
def emitting (m : Matcher text) : Bool := m.lookaheads == 0

/-- Keeps the offset of a failure if it is the furthest. -/
def noteFailure (offset : Nat) (m : Matcher text) : Matcher text :=
  if m.emitting && m.furthest < offset then { m with furthest := offset } else m

/-- Adds a token that begins at the cursor. -/
def emit (kind : Token.Kind) (m : Matcher text) : Matcher text :=
  if m.emitting then
    { m with tokens := m.tokens.push ⟨kind, m.cursor.offset, m.cursor.line⟩ }
  else m

/-- A leaf after white space and comments: `scan` says how many characters it takes and what
    token it yields.  A leaf that fails stays behind the white space. -/
def leaf (scan : List Char → Option (Nat × Option Token.Kind)) (m : Matcher text) :
    Bool × Matcher text :=
  let here := { m with cursor := m.cursor.skipTrivia }
  match scan here.cursor.rest with
  | none => (false, here.noteFailure here.cursor.offset)
  | some (length, kind?) =>
    let emitted :=
      match kind? with
      | some kind => here.emit kind
      | none => here
    (true, { emitted with cursor := here.cursor.advance length })

/-! ## Elements -/

/-- Repeats an attempt until it fails or does not advance.  Every round but the last takes a
    character, so the characters of `room` bound the rounds. -/
def repeated (attempt : Matcher text → Bool × Matcher text) (room : List Char)
    (m : Matcher text) : Matcher text :=
  match attempt m with
  | (false, m') => m'
  | (true, m') =>
    if m'.cursor.offset = m.cursor.offset then m'
    else
      match room with
      | [] => m'
      | _ :: room => repeated attempt room m'

section Elements
variable (caseSensitive : Bool) (call : Nat → Matcher text → Bool × Matcher text)

mutual

/-- Tries an element; `call` tries a rule by its index. -/
def element (e : Element) (m : Matcher text) : Bool × Matcher text :=
  settle m <|
    match e with
    | .terminal literal emits token =>
      let kind? := if emits then token.map Token.Kind.keyword else none
      m.leaf fun rest =>
        (Lexeme.matchLiteral caseSensitive literal.toList rest).map (·, kind?)
    | .rule _ id => call id m
    | .repeated body => (true, repeated (element body) m.cursor.rest m)
    | .optional body => (true, (element body m).2)
    | .notAhead body =>
      let (hit, m') := element body { m with lookaheads := m.lookaheads + 1 }
      (!hit, { m' with lookaheads := m'.lookaheads - 1 }.reset m.mark)
    | .choice list => alternatives list m
    | .number _ =>
      m.leaf fun rest => (Scan.number rest).map fun (n, x) => (n, some (.number x))
    | .label _ =>
      m.leaf fun rest => (Scan.label rest).map fun (n, s) => (n, some (.label s))
    | .run chars negated =>
      m.leaf fun rest =>
        (Scan.run chars.toList negated rest).map fun (n, s) => (n, some (.label s))

/-- Tries elements one after the other; where one fails all of them are undone. -/
def sequence (begun : Mark) : List Element → Matcher text → Bool × Matcher text
  | [], m => (true, m)
  | first :: rest, m =>
    match element first m with
    | (true, m') => sequence begun rest m'
    | (false, m') => (false, m'.reset begun)

/-- Tries sequences up to the first that matches. -/
def alternatives : List (List Element) → Matcher text → Bool × Matcher text
  | [], m => (false, m)
  | first :: rest, m =>
    match sequence m.mark first m with
    | (true, m') => (true, m')
    | (false, m') => alternatives rest m'

end
end Elements

/-! ## Rules -/

/-- Tries a rule unless too many are under way; `call` tries a rule that this one refers to. -/
def tryRule (g : Grammar) (caseSensitive : Bool)
    (call : Nat → Matcher text → Bool × Matcher text) (id : Nat) (m : Matcher text) :
    Bool × Matcher text :=
  if Recognition.maxRuleDepth ≤ m.depth then (false, m)
  else
    match g.rule? id with
    | none => (false, m)
    | some r =>
      let (matched, m') :=
        alternatives caseSensitive call r.alternatives { m with depth := m.depth + 1 }
      (matched, { m' with depth := m'.depth - 1 })

/-- Tries a rule that refers to others no deeper than `room`. -/
def ruleWithin (g : Grammar) (caseSensitive : Bool) :
    (room : Nat) → Nat → Matcher text → Bool × Matcher text
  | 0 => fun _ m => (false, m)
  | room + 1 => tryRule g caseSensitive (ruleWithin g caseSensitive room)

/-- Tries a rule.  There is room for one more rule than may be under way. -/
def rule (g : Grammar) (caseSensitive : Bool) : Nat → Matcher text → Bool × Matcher text :=
  ruleWithin g caseSensitive (Recognition.maxRuleDepth + 1)

/-! ## Calls -/

/-- The matcher at the beginning of a call: nothing is left of the calls before. -/
def started (offset line : Nat) (m : Matcher text) : Matcher text :=
  { m with cursor := .seek text offset line, tokens := #[], furthest := offset,
           lookaheads := 0, depth := 0 }

/-- Tries something at a byte offset and line.  The tokens are handed out. -/
def run (offset line : Nat) (attempt : Matcher text → Bool × Matcher text) (m : Matcher text) :
    Recognition × Matcher text :=
  let (matched, m) := attempt (m.started offset line)
  let m := if matched then m else { m with cursor := .seek text offset line, tokens := #[] }
  (⟨matched, m.cursor.position, m.tokens.toList, m.furthest⟩, { m with tokens := #[] })

/-- Matches an element at byte `offset` of the text, with lines counted from `line`. -/
def matchElementAt (g : Grammar) (caseSensitive : Bool) (e : Element) (offset line : Nat) :
    Matcher text → Recognition × Matcher text :=
  run offset line (element caseSensitive (rule g caseSensitive) e)

/-- Matches a rule at byte `offset` of the text, or at its end. -/
def matchRuleAt (g : Grammar) (caseSensitive : Bool) (id offset : Nat) :
    Matcher text → Recognition × Matcher text :=
  let place := (Position.start text).advanceBytes offset
  run place.offset place.line (rule g caseSensitive id)

/-- What a matcher can be asked. -/
inductive Call where
  | element (e : Element) (offset line : Nat)
  | rule (id offset : Nat)

/-- Answers a call. -/
def answer (g : Grammar) (caseSensitive : Bool) (m : Matcher text) :
    Call → Recognition × Matcher text
  | .element e offset line => m.matchElementAt g caseSensitive e offset line
  | .rule id offset => m.matchRuleAt g caseSensitive id offset

/-- The answers to calls that are made one after the other, and the matcher after them. -/
def answerAll (g : Grammar) (caseSensitive : Bool) (m : Matcher text) :
    List Call → List Recognition × Matcher text
  | [] => ([], m)
  | call :: calls =>
    let (outcome, m) := m.answer g caseSensitive call
    let (outcomes, m) := m.answerAll g caseSensitive calls
    (outcome :: outcomes, m)

end Matcher
end Compositing
