import Mathlib.Computability.Language
import Compositing.Proofs.Grammar.Lexing

/-! # Patterns of the symbols

    There are fifteen kinds of symbols.  The lexemes of a kind form a regular
    language: what opens the symbol, its payload and what closes it.  The
    payload of a quoted text or of a class of characters is made of items, an
    item being a character that needs no escape or an escaped one; it is read
    by resolving its escapes from left to right. -/

namespace Compositing.Grammar

open Computability

/-! ## Languages -/

/-- One character with a property. -/
def oneOf (p : Char → Prop) : Language Char := {text | ∃ c, p c ∧ text = [c]}

/-- An item of a payload: a character that is not among `others` and no backslash, or a backslash
    with a character that is no line end. -/
def item (others : List Char) : Language Char :=
  oneOf (fun c => c ∉ others ∧ c ≠ '\\') + oneOf (· = '\\') * oneOf (· ≠ '\n')

/-- A letter or an underscore, then letters, digits and underscores. -/
def nameBody : Language Char :=
  oneOf (fun c => c.isAlpha = true ∨ c = '_') * (oneOf fun c => c.isAlphanum = true ∨ c = '_')∗

/-- A repeated character is a text of such characters. -/
theorem mem_kstar_oneOf {p : Char → Prop} {text : List Char} :
    text ∈ (oneOf p)∗ ↔ ∀ c ∈ text, p c := by
  rw [Language.mem_kstar]
  constructor
  · rintro ⟨pieces, rfl, hpieces⟩ c hc
    obtain ⟨piece, hpiece, hmem⟩ := List.mem_flatten.mp hc
    obtain ⟨d, hd, rfl⟩ := hpieces piece hpiece
    rwa [List.mem_singleton.mp hmem]
  · intro htext
    refine ⟨text.map fun c => [c], ?_, ?_⟩
    · rw [← List.flatMap_def, List.flatMap_singleton']
    · intro piece hpiece
      obtain ⟨c, hc, rfl⟩ := List.mem_map.mp hpiece
      exact ⟨c, htext c hc, rfl⟩

theorem mem_item {others text : List Char} :
    text ∈ item others ↔
      (∃ c, (c ∉ others ∧ c ≠ '\\') ∧ text = [c]) ∨ ∃ c, c ≠ '\n' ∧ text = ['\\', c] := by
  rw [item, Language.mem_add, Language.mem_mul]
  constructor
  · rintro (hplain | ⟨_, ⟨c, rfl, rfl⟩, _, ⟨d, hd, rfl⟩, rfl⟩)
    · exact .inl hplain
    · exact .inr ⟨d, hd, rfl⟩
  · rintro (hplain | ⟨d, hd, rfl⟩)
    · exact .inl hplain
    · exact .inr ⟨_, ⟨_, rfl, rfl⟩, _, ⟨d, hd, rfl⟩, rfl⟩

/-- What begins with an item and goes on with items is made of items. -/
theorem append_mem_kstar {l : Language Char} {a b : List Char} (ha : a ∈ l) (hb : b ∈ l∗) :
    a ++ b ∈ l∗ := by
  obtain ⟨pieces, rfl, hpieces⟩ := Language.mem_kstar.mp hb
  exact Language.mem_kstar.mpr ⟨a :: pieces, rfl, List.forall_mem_cons.mpr ⟨ha, hpieces⟩⟩

/-- A repetition is empty, or begins with what is repeated. -/
theorem cases_of_mem_kstar {l : Language Char} {text : List Char} (h : text ∈ l∗) :
    text = [] ∨ ∃ a ∈ l, ∃ b ∈ l∗, text = a ++ b := by
  rw [← Language.one_add_self_mul_kstar_eq_kstar, Language.mem_add, Language.mem_mul] at h
  obtain hnil | ⟨a, ha, b, hb, rfl⟩ := h
  · exact .inl hnil
  · exact .inr ⟨a, ha, b, hb, rfl⟩

/-- The names of the dialect are the texts of the language of names. -/
theorem mem_nameBody {text : List Char} : text ∈ nameBody ↔ IsName (String.ofList text) := by
  rw [nameBody, Language.mem_mul, IsName, String.toList_ofList]
  constructor
  · rintro ⟨_, ⟨c, hc, rfl⟩, rest, hrest, rfl⟩
    rw [mem_kstar_oneOf] at hrest
    refine ⟨by simpa [Symbol.beginsName] using hc, ?_⟩
    intro d hd
    rcases List.mem_cons.mp hd with rfl | hd
    · rcases hc with hc | hc
      · simp [Symbol.continuesName, Char.isAlphanum, hc]
      · simp [Symbol.continuesName, hc]
    · simpa [Symbol.continuesName] using hrest d hd
  · rintro ⟨hbegins, hcontinues⟩
    cases text with
    | nil => cases hbegins
    | cons c rest =>
      refine ⟨[c], ⟨c, by simpa [Symbol.beginsName] using hbegins, rfl⟩, rest, ?_, rfl⟩
      rw [mem_kstar_oneOf]
      intro d hd
      simpa [Symbol.continuesName] using hcontinues d (List.mem_cons_of_mem c hd)

/-! ## Escapes -/

/-- The text that a payload stands for, from left to right: a backslash makes another character of
    the one behind it, and stands for itself at the end. -/
inductive Unescapes : List Char → List Char → Prop where
  | nil : Unescapes [] []
  | plain {c raw text} (hc : c ≠ '\\') (h : Unescapes raw text) :
    Unescapes (c :: raw) (c :: text)
  | escape {c raw text} (h : Unescapes raw text) :
    Unescapes ('\\' :: c :: raw) (Symbol.escaped c :: text)
  | lone : Unescapes ['\\'] ['\\']

/-- Every payload stands for one text. -/
theorem unescapes_iff {raw text : List Char} :
    Unescapes raw text ↔ text = Symbol.unescape raw := by
  constructor
  · intro h
    induction h with
    | nil => rfl
    | plain hc _ ih => rw [Symbol.unescape.eq_3 _ _ fun _ _ h => absurd h hc, ih]
    | escape _ ih => rw [Symbol.unescape, ih]
    | lone => rfl
  · rintro rfl
    fun_induction Symbol.unescape raw with
    | case1 => exact .nil
    | case2 c rest ih => exact .escape ih
    | case3 c rest hpair ih =>
      by_cases hc : c = '\\'
      · -- nothing follows this backslash
        cases rest with
        | nil => exact hc ▸ .lone
        | cons d rest => exact absurd rfl (hpair d rest hc)
      · exact .plain hc ih

/-! ## Kinds -/

/-- A kind of symbols: its lexemes, what their payloads stand for and the symbols they spell. -/
structure TokenKind where
  opening : List Char
  body : Language Char
  closing : List Char
  /-- The text that a payload stands for. -/
  Means : List Char → List Char → Prop
  exists_means : ∀ payload, ∃ text, Means payload text
  symbol : String → Symbol

namespace TokenKind

/-- The lexemes of a kind. -/
def pattern (k : TokenKind) : Language Char := {k.opening} * k.body * {k.closing}

/-- A lexeme of the kind spells a symbol: its payload is what stands between the delimiters. -/
def Reads (k : TokenKind) (lexeme : List Char) (s : Symbol) : Prop :=
  ∃ payload text, lexeme = k.opening ++ payload ++ k.closing ∧ payload ∈ k.body ∧
    k.Means payload text ∧ s = k.symbol (String.ofList text)

/-- A symbol with a single lexeme. -/
def mark (lexeme : List Char) (s : Symbol) : TokenKind where
  opening := lexeme
  body := 1
  closing := []
  Means := Eq
  exists_means payload := ⟨payload, rfl⟩
  symbol _ := s

/-- A name behind an opening bracket. -/
def named (opening : List Char) (make : String → Symbol) : TokenKind where
  opening := opening
  body := nameBody
  closing := ['>']
  Means := Eq
  exists_means payload := ⟨payload, rfl⟩
  symbol := make

/-- Items up to a closing character. -/
def quoted (opening : List Char) (stop : Char) (make : String → Symbol) : TokenKind where
  opening := opening
  body := (item [stop])∗
  closing := [stop]
  Means := Unescapes
  exists_means payload := ⟨Symbol.unescape payload, unescapes_iff.mpr rfl⟩
  symbol := make

/-- A class of characters to include is not empty and does not begin as other symbols do. -/
def included : TokenKind :=
  { quoted ['('] ')' .includeClass with body := item ['!', '?', ')'] * (item [')'])∗ }

def marks : List TokenKind :=
  [mark [':', ':', '='] .define, mark ['|'] .or, mark ['\x7b'] .repeatOpen,
    mark ['\x7d'] .repeatClose, mark ['['] .optionalOpen, mark [']'] .optionalClose,
    mark ['(', '?', '!'] .lookaheadOpen, mark [')'] .groupClose]

def names : List TokenKind :=
  [named ['<'] .rule, named ['<', '#'] .number, named ['<', '@'] .label]

def quotations : List TokenKind :=
  [quoted ['\''] '\'' .terminal, quoted ['-', '\''] '\'' .silentTerminal,
    quoted ['(', '!'] ')' .excludeClass, included]

/-- The kinds of the symbols. -/
def all : List TokenKind := marks ++ names ++ quotations

theorem mem_pattern {k : TokenKind} {lexeme : List Char} :
    lexeme ∈ k.pattern ↔ ∃ payload ∈ k.body, lexeme = k.opening ++ payload ++ k.closing := by
  rw [pattern, Language.mem_mul]
  simp only [Language.mem_mul]
  constructor
  · rintro ⟨_, ⟨_, rfl, payload, hpayload, rfl⟩, _, rfl, rfl⟩
    exact ⟨payload, hpayload, rfl⟩
  · rintro ⟨payload, hpayload, rfl⟩
    exact ⟨_, ⟨_, rfl, payload, hpayload, rfl⟩, _, rfl, rfl⟩

theorem reads_mark {text lexeme : List Char} {s t : Symbol} :
    (mark text s).Reads lexeme t ↔ lexeme = text ∧ t = s := by
  constructor
  · rintro ⟨payload, _, rfl, hpayload, _, rfl⟩
    have hnil : payload = [] := hpayload
    simp [mark, hnil]
  · rintro ⟨rfl, rfl⟩
    exact ⟨[], [], by simp [mark], rfl, rfl, rfl⟩

theorem reads_named {opening lexeme : List Char} {make : String → Symbol} {s : Symbol} :
    (named opening make).Reads lexeme s ↔
      ∃ name, IsName name ∧ lexeme = opening ++ name.toList ++ ['>'] ∧ s = make name := by
  constructor
  · rintro ⟨payload, _, rfl, hpayload, rfl, rfl⟩
    exact ⟨String.ofList payload, mem_nameBody.mp hpayload, by simp [named], rfl⟩
  · rintro ⟨name, hname, rfl, rfl⟩
    have hbody : name.toList ∈ nameBody := by
      rw [mem_nameBody, String.ofList_toList]
      exact hname
    exact ⟨name.toList, name.toList, rfl, hbody, rfl, by simp [named]⟩

theorem reads_quoted {opening lexeme : List Char} {stop : Char} {make : String → Symbol}
    {s : Symbol} :
    (quoted opening stop make).Reads lexeme s ↔
      ∃ payload ∈ (item [stop])∗, lexeme = opening ++ payload ++ [stop] ∧
        s = make (String.ofList (Symbol.unescape payload)) := by
  constructor
  · rintro ⟨payload, text, rfl, hpayload, hmeans, rfl⟩
    exact ⟨payload, hpayload, rfl, by rw [unescapes_iff.mp hmeans]; rfl⟩
  · rintro ⟨payload, hpayload, rfl, rfl⟩
    exact ⟨payload, _, rfl, hpayload, unescapes_iff.mpr rfl, rfl⟩

theorem reads_included {lexeme : List Char} {s : Symbol} :
    included.Reads lexeme s ↔
      ∃ first ∈ item ['!', '?', ')'], ∃ more ∈ (item [')'])∗,
        lexeme = '(' :: (first ++ more) ++ [')'] ∧
        s = .includeClass (String.ofList (Symbol.unescape (first ++ more))) := by
  constructor
  · rintro ⟨_, text, rfl, ⟨first, hfirst, more, hmore, rfl⟩, hmeans, rfl⟩
    exact ⟨first, hfirst, more, hmore, rfl, by rw [unescapes_iff.mp hmeans]; rfl⟩
  · rintro ⟨first, hfirst, more, hmore, rfl, rfl⟩
    exact ⟨first ++ more, _, rfl, ⟨first, hfirst, more, hmore, rfl⟩, unescapes_iff.mpr rfl, rfl⟩

/-- A lexeme of a kind spells a symbol. -/
theorem exists_reads {k : TokenKind} {lexeme : List Char} (h : lexeme ∈ k.pattern) :
    ∃ s, k.Reads lexeme s := by
  obtain ⟨payload, hpayload, hlexeme⟩ := mem_pattern.mp h
  obtain ⟨text, htext⟩ := k.exists_means payload
  exact ⟨_, payload, text, hlexeme, hpayload, htext, rfl⟩

theorem Reads.mem_pattern {k : TokenKind} {lexeme : List Char} {s : Symbol}
    (h : k.Reads lexeme s) : lexeme ∈ k.pattern := by
  obtain ⟨payload, _, rfl, hpayload, _, _⟩ := h
  exact TokenKind.mem_pattern.mpr ⟨payload, hpayload, rfl⟩

end TokenKind
end Compositing.Grammar
