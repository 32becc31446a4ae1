import Compositing.Lexicon

/-! # Grammars

    A grammar is a list of rules whose references are resolved to the index of
    a rule.  Linking gives every terminal that can emit a token the id of its
    keyword.  The text of a grammar is written in the dialect it is read from. -/

namespace Compositing

/-- An element of a rule. -/
inductive Element where
  /-- A literal; if it emits and is linked, matching it yields the keyword's token. -/
  | terminal (text : String) (emits : Bool) (token : Option Nat)
  /-- Another rule, by name and index. -/
  | rule (name : String) (id : Nat)
  /-- As often as possible, perhaps never. -/
  | repeated (body : Element)
  /-- Once or not at all. -/
  | optional (body : Element)
  /-- Nothing, where the body does not match. -/
  | notAhead (body : Element)
  /-- The first sequence that matches. -/
  | choice (alternatives : List (List Element))
  /-- A number. -/
  | number (name : String)
  /-- A label, quoted or bare. -/
  | label (name : String)
  /-- A run of characters in `chars`, or outside if negated, taken as a label. -/
  | run (chars : String) (negated : Bool)

namespace Element

-- the elements of a group are lists of lists, so the three are decided together
mutual

/-- Are two elements the same? -/
def decEq (a b : Element) : Decidable (a = b) :=
  if h : a.ctorIdx = b.ctorIdx then
    match a, b, h with
    | .terminal text emits token, .terminal text' emits' token', _ =>
      decidable_of_iff (text = text' ∧ emits = emits' ∧ token = token') (by simp)
    | .rule name id, .rule name' id', _ => decidable_of_iff (name = name' ∧ id = id') (by simp)
    | .repeated body, .repeated body', _ =>
      have := decEq body body'
      decidable_of_iff (body = body') (by simp)
    | .optional body, .optional body', _ =>
      have := decEq body body'
      decidable_of_iff (body = body') (by simp)
    | .notAhead body, .notAhead body', _ =>
      have := decEq body body'
      decidable_of_iff (body = body') (by simp)
    | .choice list, .choice list', _ =>
      have := decEqAlternatives list list'
      decidable_of_iff (list = list') (by simp)
    | .number name, .number name', _ => decidable_of_iff (name = name') (by simp)
    | .label name, .label name', _ => decidable_of_iff (name = name') (by simp)
    | .run chars negated, .run chars' negated', _ =>
      decidable_of_iff (chars = chars' ∧ negated = negated') (by simp)
  else isFalse fun heq => h (congrArg Element.ctorIdx heq)

/-- Are two sequences the same? -/
def decEqSequence : (a b : List Element) → Decidable (a = b)
  | [], [] => isTrue rfl
  | a :: l, b :: l' =>
    have := decEq a b
    have := decEqSequence l l'
    decidable_of_iff (a = b ∧ l = l') (by simp)
  | [], _ :: _ | _ :: _, [] => isFalse nofun

/-- Are two lists of sequences the same? -/
def decEqAlternatives : (a b : List (List Element)) → Decidable (a = b)
  | [], [] => isTrue rfl
  | a :: l, b :: l' =>
    have := decEqSequence a b
    have := decEqAlternatives l l'
    decidable_of_iff (a = b ∧ l = l') (by simp)
  | [], _ :: _ | _ :: _, [] => isFalse nofun

end

instance : DecidableEq Element := decEq

end Element

/-- A named rule. -/
structure Rule where
  name : String
  alternatives : List (List Element)
  deriving DecidableEq

/-- Rules in the order of their text, and the index of the rule for a whole script. -/
structure Grammar where
  rules : List Rule
  start : Nat
  deriving DecidableEq

namespace Grammar

/-- The rule with index `id`. -/
def rule? (g : Grammar) (id : Nat) : Option Rule := g.rules[id]?

/-- The index of the rule called `name`. -/
def ruleId? (g : Grammar) (name : String) : Option Nat := g.rules.findIdx? (·.name == name)

/-- What a script is a sequence of.  A start rule that is one repetition means a run of its
    body; any other start rule is matched as a whole. -/
def statement (g : Grammar) : Element :=
  match g.rule? g.start with
  | some ⟨_, [[.repeated body]]⟩ => body
  | some rule => .rule rule.name g.start
  | none => .rule "" g.start

end Grammar

/-! ## Text of a grammar -/

namespace Element

/-- `text` with line ends, tabs, backslashes and the closing character escaped. -/
def escape (stop : Char) : List Char → List Char
  | [] => []
  | c :: rest =>
    let shown :=
      match c with
      | '\n' => ['\\', 'n']
      | '\r' => ['\\', 'r']
      | '\t' => ['\\', 't']
      | '\\' => ['\\', '\\']
      | c => if c = stop then ['\\', c] else [c]
    shown ++ escape stop rest

/-- A payload as it is written. -/
def payload (stop : Char) (text : String) : String := String.ofList (escape stop text.toList)

mutual

/-- An element as it is written. -/
def display : Element → String
  | .terminal text emits _ => (if emits then "" else "-") ++ "'" ++ payload '\'' text ++ "'"
  | .rule name _ => "<" ++ name ++ ">"
  | .repeated body => "\x7b" ++ display body ++ "\x7d"
  | .optional body => "[" ++ display body ++ "]"
  | .notAhead body => "(?!" ++ display body ++ ")"
  | .choice alternatives => displayAlternatives alternatives
  | .number name => "<#" ++ name ++ ">"
  | .label name => "<@" ++ name ++ ">"
  | .run chars negated => "(" ++ (if negated then "!" else "") ++ payload ')' chars ++ ")"

/-- Elements with a space between two. -/
def displaySequence : List Element → String
  | [] => ""
  | [element] => display element
  | element :: rest => display element ++ " " ++ displaySequence rest

/-- Sequences with a bar between two. -/
def displayAlternatives : List (List Element) → String
  | [] => ""
  | [sequence] => displaySequence sequence
  | sequence :: rest => displaySequence sequence ++ " | " ++ displayAlternatives rest

end
end Element

/-- A rule as it is written. -/
def Rule.display (r : Rule) : String :=
  "<" ++ r.name ++ "> ::= " ++ Element.displayAlternatives r.alternatives

/-- A grammar as it is written, a line for each rule. -/
def Grammar.display (g : Grammar) : String := "\n".intercalate (g.rules.map Rule.display)

end Compositing
