import Compositing.Grammar.Symbol

/-! # Rules as written

    Symbols are cut into rules where a name is followed by `::=`, and each
    rule body is read in one pass with a stack of the groups that are open.
    A body is one or more alternatives, an alternative one or more elements,
    and a group encloses a body.  The first symbol that cannot continue what
    has been read is the one reported. -/

namespace Compositing.Grammar

/-- An element of a rule as written, its references still names. -/
inductive Draft where
  | terminal (text : String) (emits : Bool)
  | rule (name : String)
  | repeated (body : List (List Draft))
  | optional (body : List (List Draft))
  | notAhead (body : List (List Draft))
  | number (name : String)
  | label (name : String)
  | run (chars : String) (negated : Bool)

/-- A rule as written and the line its name stands on. -/
structure RuleDraft where
  name : String
  line : Nat
  alternatives : List (List Draft)

/-- What is wrong with the text of a rule. -/
inductive RuleFault where
  | emptyBody
  | unexpected (symbol : Symbol)
  | unfinished
  | notARule (symbol : Symbol)

/-- The wording of a fault. -/
def RuleFault.message : RuleFault → String
  | .emptyBody => "empty rule body"
  | .unexpected symbol => "unexpected " ++ symbol.describe
  | .unfinished => "unexpected end of rule"
  | .notARule symbol => "expected a rule definition, found " ++ symbol.describe

/-- A fault, the rule it is in, if any, and its line. -/
structure RuleError where
  rule : String
  line : Nat
  fault : RuleFault

namespace Draft

/-! ## Groups -/

/-- The kinds of group. -/
inductive Group where
  | repeated
  | optional
  | notAhead
  deriving DecidableEq

/-- The group that a symbol opens. -/
def Group.opened? : Symbol → Option Group
  | .repeatOpen => some .repeated
  | .optionalOpen => some .optional
  | .lookaheadOpen => some .notAhead
  | _ => none

/-- The group that a symbol closes. -/
def Group.closed? : Symbol → Option Group
  | .repeatClose => some .repeated
  | .optionalClose => some .optional
  | .groupClose => some .notAhead
  | _ => none

/-- The element that a group with this body is. -/
def Group.wrap (body : List (List Draft)) : Group → Draft
  | .repeated => .repeated body
  | .optional => .optional body
  | .notAhead => .notAhead body

/-- The element that a symbol is by itself. -/
def ofSymbol? : Symbol → Option Draft
  | .rule name => some (.rule name)
  | .number name => some (.number name)
  | .label name => some (.label name)
  | .terminal text => some (.terminal text true)
  | .silentTerminal text => some (.terminal text false)
  | .excludeClass chars => some (.run chars true)
  | .includeClass chars => some (.run chars false)
  | _ => none

/-! ## Reading a body -/

/-- A body under way: finished alternatives and the elements of the last, latest first. -/
structure Body where
  done : List (List Draft)
  current : List Draft

namespace Body

/-- Nothing read yet. -/
def empty : Body := ⟨[], []⟩

/-- Has the alternative under way no element yet? -/
def atBeginning (b : Body) : Bool := b.current.isEmpty

/-- One more element. -/
def push (element : Draft) (b : Body) : Body := { b with current := element :: b.current }

/-- A new alternative. -/
def bar (b : Body) : Body := ⟨b.current.reverse :: b.done, []⟩

/-- The alternatives in order. -/
def alternatives (b : Body) : List (List Draft) := b.bar.done.reverse

end Body

/-- The innermost body and the open groups around it, each with the body it stands in. -/
structure Reading where
  inner : Body
  outer : List (Group × Body)

namespace Reading

/-- Nothing read yet. -/
def start : Reading := ⟨.empty, []⟩

/-- One more symbol, or nothing if it is impossible here. -/
def step? (r : Reading) (symbol : Symbol) : Option Reading :=
  if let some element := ofSymbol? symbol then
    some { r with inner := r.inner.push element }
  else if let some group := Group.opened? symbol then
    some ⟨.empty, (group, r.inner) :: r.outer⟩
  else if r.inner.atBeginning then none
  else if symbol = .or then some { r with inner := r.inner.bar }
  else
    match r.outer with
    | (group, around) :: outer =>
      if Group.closed? symbol = some group then
        some ⟨around.push (group.wrap r.inner.alternatives), outer⟩
      else none
    | [] => none

/-- The body read, if it may end here. -/
def finish? (r : Reading) : Option (List (List Draft)) :=
  if r.outer.isEmpty && !r.inner.atBeginning then some r.inner.alternatives else none

/-- Reads symbols up to the end or the first impossible one. -/
def run (r : Reading) : List PlacedSymbol → Except PlacedSymbol Reading
  | [] => .ok r
  | s :: rest =>
    match r.step? s.symbol with
    | some r => run r rest
    | none => .error s

end Reading
end Draft

/-! ## Rules -/

/-- The symbols of one rule: its name, the line of the name and its body. -/
structure RuleText where
  name : String
  line : Nat
  body : List PlacedSymbol

/-- Cuts symbols into those before the first header and the rules.  A header is a name
    followed by `::=`. -/
def RuleText.cut : List PlacedSymbol → List PlacedSymbol × List RuleText
  | [] => ([], [])
  | s :: rest =>
    let (body, rules) := cut rest
    match s.symbol, rest.head?.map PlacedSymbol.symbol with
    | .rule name, some .define => ([], ⟨name, s.line, body.drop 1⟩ :: rules)
    | _, _ => (s :: body, rules)

/-- Reads the body of a rule. -/
def RuleText.read (r : RuleText) : Except RuleError RuleDraft :=
  if r.body.isEmpty then .error ⟨r.name, r.line, .emptyBody⟩
  else
    match Draft.Reading.start.run r.body with
    | .error s => .error ⟨r.name, s.line, .unexpected s.symbol⟩
    | .ok reading =>
      match reading.finish? with
      | some alternatives => .ok ⟨r.name, r.line, alternatives⟩
      | none => .error ⟨r.name, r.line, .unfinished⟩

/-- The rules of a list of symbols, which must begin with a header. -/
def RuleDraft.ofSymbols? (symbols : List PlacedSymbol) : Except RuleError (List RuleDraft) :=
  match RuleText.cut symbols with
  | (stray :: _, _) => .error ⟨"", stray.line, .notARule stray.symbol⟩
  | ([], rules) => rules.mapM RuleText.read

end Compositing.Grammar
