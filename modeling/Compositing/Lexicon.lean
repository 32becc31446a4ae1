import Compositing.Text.Blank
import Compositing.Token

/-! # Keywords

    A lexicon maps keyword texts to token ids and, for keywords that begin an
    action, to that action.  It is filled once while a language is set up and
    only read afterwards.

    Matching a keyword is a test at the front of the text: the grammar decides
    which keyword is tried where, so there is no longest match here, and
    `less` matches the front of `less_equal` if it is tried first. -/

namespace Compositing

/-- A registered keyword. -/
structure Lexeme (α : Type) where
  text : String
  id : Nat
  action : Option α
  /-- Does the text consist of several words? -/
  multiWord : Bool

/-- Why a keyword was refused. -/
inductive LexemeError where
  | duplicateText (text : String)
  | duplicateId (id : Nat) (existing : String)
  | reservedId (id : Nat)
  | blank

/-- The wording of a refusal. -/
def LexemeError.message : LexemeError → String
  | .duplicateText text => "lexeme '" ++ text ++ "' is already registered"
  | .duplicateId id existing =>
    "token id " ++ toString id ++ " is already used by lexeme '" ++ existing ++ "'"
  | .reservedId id => "token id " ++ toString id ++ " is reserved for system tokens"
  | .blank => "empty lexeme"

/-- The keywords of a language, in the order of registration. -/
structure Lexicon (α : Type) where
  caseSensitive : Bool
  entries : List (Lexeme α)

namespace Lexicon
variable {α : Type}

/-- No keywords yet. -/
def empty (caseSensitive : Bool) : Lexicon α := ⟨caseSensitive, []⟩

/-- What two texts must share to count as the same keyword. -/
def key (lexicon : Lexicon α) (text : String) : String :=
  if lexicon.caseSensitive then text else String.ofList (Text.foldCase text.toList)

/-- The entry registered for `text`, up to case where case does not count. -/
def lookup (lexicon : Lexicon α) (text : String) : Option (Lexeme α) :=
  lexicon.entries.find? fun entry => lexicon.key entry.text == lexicon.key text

/-- The entry registered with `id`. -/
def lookupId (lexicon : Lexicon α) (id : Nat) : Option (Lexeme α) :=
  lexicon.entries.find? fun entry => entry.id == id

/-- The action that the token `id` begins. -/
def action? (lexicon : Lexicon α) (id : Nat) : Option α :=
  (lexicon.lookupId id).bind (·.action)

/-- The text registered with `id`. -/
def text? (lexicon : Lexicon α) (id : Nat) : Option String :=
  (lexicon.lookupId id).map (·.text)

/-- Adds a keyword.  It must not be blank, its id must not be reserved, and neither its text
    nor its id may be taken; the first of these that fails is reported. -/
def register (lexicon : Lexicon α) (text : String) (id : Nat) (action : Option α) :
    Except LexemeError (Lexicon α) :=
  if Text.isAllBlank text.toList then .error .blank
  else if Token.reservedBase ≤ id then .error (.reservedId id)
  else if (lexicon.lookup text).isSome then .error (.duplicateText text)
  else
    match lexicon.lookupId id with
    | some existing => .error (.duplicateId id existing.text)
    | none =>
      let multiWord := 2 ≤ (Text.words text.toList).length
      .ok { lexicon with entries := lexicon.entries ++ [⟨text, id, action, multiWord⟩] }

/-- Adds keywords one after the other, up to the first that is refused. -/
def registerAll (lexicon : Lexicon α) (lexemes : List (String × Nat × Option α)) :
    Except LexemeError (Lexicon α) :=
  lexemes.foldlM (fun lexicon (text, id, action) => lexicon.register text id action) lexicon

end Lexicon

/-! ## Matching a keyword -/

namespace Lexeme

/-- What is left of `text` after `word`, compared letter by letter. -/
def afterWord? (caseSensitive : Bool) : (word text : List Char) → Option (List Char)
  | [], text => some text
  | _ :: _, [] => none
  | w :: word, c :: text =>
    if Text.sameLetter caseSensitive w c then afterWord? caseSensitive word text else none

/-- How many characters of `text` spell the words, with white space before each. -/
def spacedWordsLength? (caseSensitive : Bool) : (words : List (List Char)) → (text : List Char) →
    Option Nat
  | [], _ => some 0
  | word :: words, text =>
    match (text.takeWhile Text.isBlank).length with
    | 0 => none
    | gap =>
      match afterWord? caseSensitive word (text.drop gap) with
      | some rest => (spacedWordsLength? caseSensitive words rest).map (gap + word.length + ·)
      | none => none

/-- How many characters of `text` spell `literal`: its words in order, any white space
    between two of them.  A literal without words, which no lexicon holds, stands for itself. -/
def matchLiteral (caseSensitive : Bool) (literal text : List Char) : Option Nat :=
  match Text.words literal with
  | [] =>
    if literal.isEmpty then none else (afterWord? true literal text).map fun _ => literal.length
  | word :: words =>
    match afterWord? caseSensitive word text with
    | some rest => (spacedWordsLength? caseSensitive words rest).map (word.length + ·)
    | none => none

end Lexeme
end Compositing
