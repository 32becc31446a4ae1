/-! # White space and words

    The characters with the Unicode property White_Space, and the operations
    on texts that depend on it: trimming and splitting into words.  Texts are
    lists of characters; a text is measured in bytes of its UTF-8 form. -/

namespace Compositing.Text

/-! ## The property -/

/-- The code points with the property White_Space, as closed ascending ranges. -/
def blankRanges : List (Nat × Nat) :=
  [(0x0009, 0x000D), (0x0020, 0x0020), (0x0085, 0x0085), (0x00A0, 0x00A0),
   (0x1680, 0x1680), (0x2000, 0x200A), (0x2028, 0x2029), (0x202F, 0x202F),
   (0x205F, 0x205F), (0x3000, 0x3000)]

/-- Is `c` white space? -/
def isBlank (c : Char) : Bool :=
  blankRanges.any fun range => range.1 ≤ c.toNat && c.toNat ≤ range.2

/-! ## Trimming and words -/

/-- `text` without its leading white space. -/
def trimStart (text : List Char) : List Char := text.dropWhile isBlank

/-- `text` without its trailing white space. -/
def trimEnd (text : List Char) : List Char := (text.reverse.dropWhile isBlank).reverse

/-- The maximal runs of characters that are not white space. -/
def words (text : List Char) : List (List Char) :=
  go [] text
where
  /-- `word` is the run under way, latest character first. -/
  go (word : List Char) : List Char → List (List Char)
    | [] => if word.isEmpty then [] else [word.reverse]
    | c :: rest =>
      if !isBlank c then go (c :: word) rest
      else if word.isEmpty then go [] rest
      else word.reverse :: go [] rest

/-- The first word of `text`, if it has one. -/
def firstWord? (text : List Char) : Option (List Char) :=
  match (trimStart text).takeWhile (!isBlank ·) with
  | [] => none
  | word => some word

/-- Does `text` hold nothing but white space? -/
def isAllBlank (text : List Char) : Bool := text.all isBlank

/-! ## Letters and bytes -/

/-- Are two characters the same, or the same up to the case of an ASCII letter? -/
def sameLetter (caseSensitive : Bool) (a b : Char) : Bool :=
  if caseSensitive then a == b else a.toLower == b.toLower

/-- Every ASCII capital replaced by its small letter. -/
def foldCase (text : List Char) : List Char := text.map Char.toLower

/-- Bytes of the UTF-8 form. -/
def byteLength : (text : List Char) → Nat
  | [] => 0
  | c :: rest => c.utf8Size + byteLength rest

@[simp] theorem byteLength_nil : byteLength [] = 0 := rfl

@[simp] theorem byteLength_cons (c : Char) (text : List Char) :
    byteLength (c :: text) = c.utf8Size + byteLength text := rfl

@[simp] theorem byteLength_append (a b : List Char) :
    byteLength (a ++ b) = byteLength a + byteLength b := by
  induction a with
  | nil => simp
  | cons c rest ih =>
    simp only [List.cons_append, byteLength_cons, ih]
    omega

/-- Only the empty text has no bytes. -/
theorem byteLength_eq_zero_iff {text : List Char} : byteLength text = 0 ↔ text = [] := by
  cases text with
  | nil => simp
  | cons c rest =>
    have := c.utf8Size_pos
    simp
    omega

/-- Number of line ends. -/
def newlines (text : List Char) : Nat := text.count '\n'

end Compositing.Text
