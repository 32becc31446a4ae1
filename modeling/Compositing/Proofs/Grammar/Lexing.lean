import Compositing.Grammar.Element
import Compositing.Grammar.Symbol

/-! # Lexing what was written

    Each symbol has one spelling that shows all there is to it: payloads are
    escaped up to their closing character, and names stand between their
    brackets.  Cutting a text of spelled symbols, with any white space between
    them, yields these symbols.

    One kind of symbol has no spelling that lexes: a class of characters to
    include whose text begins with `!` or `?` is taken for something else. -/

namespace Compositing.Grammar

open Element (escape)

/-! ## Payloads -/

/-- A character may close a payload: it stands for itself when it is escaped. -/
structure Closes (stop : Char) : Prop where
  escaped : Symbol.escaped stop = stop
  plain : stop ≠ '\\'
  oneLine : stop ≠ '\n'

theorem closes_quote : Closes '\'' := by constructor <;> decide

theorem closes_parenthesis : Closes ')' := by constructor <;> decide

section
variable {stop : Char} (hstop : Closes stop)
include hstop

/-- A character is escaped by one that stands for it, or shown as it is. -/
theorem escape_cons (c : Char) (rest : List Char) :
    (∃ d, escape stop (c :: rest) = '\\' :: d :: escape stop rest ∧ Symbol.escaped d = c ∧
      d ≠ '\n') ∨
    (escape stop (c :: rest) = c :: escape stop rest ∧ c ≠ '\\' ∧ c ≠ stop) := by
  by_cases hline : c = '\n'
  · exact .inl ⟨'n', by rw [hline]; rfl, by rw [hline]; rfl, by decide⟩
  by_cases hreturn : c = '\r'
  · exact .inl ⟨'r', by rw [hreturn]; rfl, by rw [hreturn]; rfl, by decide⟩
  by_cases htab : c = '\t'
  · exact .inl ⟨'t', by rw [htab]; rfl, by rw [htab]; rfl, by decide⟩
  by_cases hslash : c = '\\'
  · exact .inl ⟨'\\', by rw [hslash]; rfl, by rw [hslash]; rfl, by decide⟩
  have hshown : escape stop (c :: rest) =
      (if c = stop then ['\\', c] else [c]) ++ escape stop rest := by
    rw [escape] <;> assumption
  by_cases hclose : c = stop
  · refine .inl ⟨c, ?_, by rw [hclose, hstop.escaped], hline⟩
    rw [hshown, if_pos hclose]
    rfl
  · refine .inr ⟨?_, hslash, hclose⟩
    rw [hshown, if_neg hclose]
    rfl

/-- What was escaped is read back. -/
theorem unescape_escape (text : List Char) : Symbol.unescape (escape stop text) = text := by
  induction text with
  | nil => rfl
  | cons c rest ih =>
    rcases escape_cons hstop c rest with ⟨d, hshown, hd, _⟩ | ⟨hshown, hslash, _⟩
    · rw [hshown, Symbol.unescape, hd, ih]
    · rw [hshown, Symbol.unescape.eq_3 _ _ fun _ _ h => absurd h hslash, ih]

/-- The payload of an escaped text ends where the text does. -/
theorem payloadLength_escape (text after : List Char) :
    Symbol.payloadLength stop (escape stop text ++ stop :: after) =
      (escape stop text).length := by
  have hgo : ∀ taken, Symbol.payloadLength.go stop taken (escape stop text ++ stop :: after) =
      taken + (escape stop text).length := by
    induction text with
    | nil =>
      intro taken
      show Symbol.payloadLength.go stop taken (stop :: after) = taken
      rw [Symbol.payloadLength.go.eq_2 _ _ _ _ fun _ _ h => absurd h hstop.plain]
      simp
    | cons c rest ih =>
      intro taken
      rcases escape_cons hstop c rest with ⟨d, hshown, _, hd⟩ | ⟨hshown, hslash, hc⟩
      · rw [hshown, List.cons_append, List.cons_append, Symbol.payloadLength.go,
          if_neg (by simpa using hd), ih, List.length_cons, List.length_cons]
        omega
      · rw [hshown, List.cons_append,
          Symbol.payloadLength.go.eq_2 _ _ _ _ fun _ _ h => absurd h hslash,
          if_neg (by simp [hslash, hc]), ih, List.length_cons]
        omega
  rw [Symbol.payloadLength, hgo, Nat.zero_add]

/-- A payload is read back with its closing character. -/
theorem scanQuoted_escape (make : String → Symbol) (opening : Nat) (text : String)
    (after : List Char) :
    Symbol.scanQuoted make opening stop (escape stop text.toList ++ stop :: after) =
      .symbol (make text) (opening + (escape stop text.toList).length + 1) := by
  unfold Symbol.scanQuoted
  rw [payloadLength_escape hstop]
  simp [unescape_escape hstop]

end

/-! ## Names -/

/-- The text is a name of the dialect. -/
def IsName (name : String) : Prop :=
  name.toList.head?.any Symbol.beginsName = true ∧ ∀ c ∈ name.toList, Symbol.continuesName c = true

/-- A name is read back with its closing bracket. -/
theorem scanNamed_name (make : String → Symbol) (opening : Nat) {name : String}
    (h : IsName name) (after : List Char) :
    Symbol.scanNamed make opening (name.toList ++ '>' :: after) =
      .symbol (make name) (opening + name.toList.length + 1) := by
  obtain ⟨hbegins, hcontinues⟩ := h
  have hhead : (name.toList ++ '>' :: after).head?.any Symbol.beginsName = true := by
    cases hname : name.toList with
    | nil =>
      rw [hname] at hbegins
      cases hbegins
    | cons c rest =>
      rw [hname] at hbegins
      exact hbegins
  have htake : (name.toList ++ '>' :: after).takeWhile Symbol.continuesName = name.toList := by
    rw [List.takeWhile_append_of_pos hcontinues]
    have hbracket : Symbol.continuesName '>' = false := by decide
    simp [List.takeWhile, hbracket]
  unfold Symbol.scanNamed
  rw [if_pos hhead]
  simp [htake]

/-! ## Spellings -/

/-- How a symbol is spelled. -/
def Symbol.spelling : Symbol → List Char
  | .define => [':', ':', '=']
  | .or => ['|']
  | .repeatOpen => ['\x7b']
  | .repeatClose => ['\x7d']
  | .optionalOpen => ['[']
  | .optionalClose => [']']
  | .lookaheadOpen => ['(', '?', '!']
  | .groupClose => [')']
  | .rule name => '<' :: (name.toList ++ ['>'])
  | .number name => '<' :: '#' :: (name.toList ++ ['>'])
  | .label name => '<' :: '@' :: (name.toList ++ ['>'])
  | .terminal text => '\'' :: (escape '\'' text.toList ++ ['\''])
  | .silentTerminal text => '-' :: '\'' :: (escape '\'' text.toList ++ ['\''])
  | .excludeClass chars => '(' :: '!' :: (escape ')' chars.toList ++ [')'])
  | .includeClass chars => '(' :: (escape ')' chars.toList ++ [')'])

/-- What holds of every symbol that was cut from a text. -/
def Symbol.IsCut : Symbol → Prop
  | .rule name | .number name | .label name => IsName name
  | .includeClass chars => chars.toList ≠ []
  | _ => True

/-- A class of characters to include begins with none that marks something else. -/
def Symbol.IsPlain : Symbol → Prop
  | .includeClass chars => chars.toList.head? ≠ some '!' ∧ chars.toList.head? ≠ some '?'
  | _ => True

/-- A name after an angle bracket is that of a rule. -/
theorem scan_name {name : String} (h : IsName name) (after : List Char) :
    Symbol.scan '<' (name.toList ++ after) = Symbol.scanNamed .rule 1 (name.toList ++ after) := by
  cases hname : name.toList with
  | nil =>
    have hbegins := h.1
    rw [hname] at hbegins
    cases hbegins
  | cons c rest =>
    have hbegins : Symbol.beginsName c = true := by
      have hbegins := h.1
      rw [hname] at hbegins
      exact hbegins
    have hnumber : c ≠ '#' := by
      rintro rfl
      exact absurd hbegins (by decide)
    have hlabel : c ≠ '@' := by
      rintro rfl
      exact absurd hbegins (by decide)
    rw [List.cons_append]
    unfold Symbol.scan
    split <;> simp_all

/-- A parenthesis before the text of a plain class opens the class. -/
theorem scan_class {chars : String} (hcut : chars.toList ≠ [])
    (hplain : Symbol.IsPlain (.includeClass chars)) (after : List Char) :
    Symbol.scan '(' (escape ')' chars.toList ++ after) =
      Symbol.scanQuoted .includeClass 1 ')' (escape ')' chars.toList ++ after) := by
  cases hchars : chars.toList with
  | nil => exact absurd hchars hcut
  | cons c rest =>
    obtain ⟨hexclude, hlookahead⟩ := hplain
    rw [hchars] at hexclude hlookahead
    -- the first character is shown, and shown it is no mark either
    obtain ⟨d, tail, hshown, hd⟩ : ∃ d tail, escape ')' (c :: rest) = d :: tail ∧
        d ≠ '!' ∧ d ≠ '?' ∧ d ≠ ')' := by
      rcases escape_cons closes_parenthesis c rest with ⟨d, hshown, _, _⟩ | ⟨hshown, _, hc⟩
      · exact ⟨_, _, hshown, by decide, by decide, by decide⟩
      · exact ⟨_, _, hshown, by simpa using hexclude, by simpa using hlookahead, hc⟩
    rw [hshown, List.cons_append]
    unfold Symbol.scan
    split <;> simp_all

/-- The spelling of a symbol is scanned to the symbol, whatever follows. -/
theorem scan_spelling {s : Symbol} (hcut : s.IsCut) (hplain : s.IsPlain) :
    ∃ c rest, s.spelling = c :: rest ∧ Symbol.isGap c = false ∧
      ∀ after, Symbol.scan c (rest ++ after) = .symbol s (rest.length + 1) := by
  cases s with
  | define | or | repeatOpen | repeatClose | optionalOpen | optionalClose | lookaheadOpen
  | groupClose => exact ⟨_, _, rfl, by decide, fun after => rfl⟩
  | rule name =>
    refine ⟨_, _, rfl, by decide, fun after => ?_⟩
    rw [List.append_assoc, scan_name hcut, List.singleton_append,
      scanNamed_name _ _ hcut]
    exact congrArg (Symbol.Scan.symbol _) (by simp; omega)
  | number name =>
    refine ⟨_, _, rfl, by decide, fun after => ?_⟩
    show Symbol.scanNamed .number 2 ((name.toList ++ ['>']) ++ after) = _
    rw [List.append_assoc, List.singleton_append, scanNamed_name _ _ hcut]
    exact congrArg (Symbol.Scan.symbol _) (by simp; omega)
  | label name =>
    refine ⟨_, _, rfl, by decide, fun after => ?_⟩
    show Symbol.scanNamed .label 2 ((name.toList ++ ['>']) ++ after) = _
    rw [List.append_assoc, List.singleton_append, scanNamed_name _ _ hcut]
    exact congrArg (Symbol.Scan.symbol _) (by simp; omega)
  | terminal text =>
    refine ⟨_, _, rfl, by decide, fun after => ?_⟩
    show Symbol.scanQuoted .terminal 1 '\'' ((escape '\'' text.toList ++ ['\'']) ++ after) = _
    rw [List.append_assoc, List.singleton_append, scanQuoted_escape closes_quote]
    exact congrArg (Symbol.Scan.symbol _) (by simp; omega)
  | silentTerminal text =>
    refine ⟨_, _, rfl, by decide, fun after => ?_⟩
    show Symbol.scanQuoted .silentTerminal 2 '\'' ((escape '\'' text.toList ++ ['\'']) ++ after) = _
    rw [List.append_assoc, List.singleton_append, scanQuoted_escape closes_quote]
    exact congrArg (Symbol.Scan.symbol _) (by simp; omega)
  | excludeClass chars =>
    refine ⟨_, _, rfl, by decide, fun after => ?_⟩
    show Symbol.scanQuoted .excludeClass 2 ')' ((escape ')' chars.toList ++ [')']) ++ after) = _
    rw [List.append_assoc, List.singleton_append, scanQuoted_escape closes_parenthesis]
    exact congrArg (Symbol.Scan.symbol _) (by simp; omega)
  | includeClass chars =>
    refine ⟨_, _, rfl, by decide, fun after => ?_⟩
    rw [List.append_assoc, List.singleton_append, scan_class hcut hplain,
      scanQuoted_escape closes_parenthesis]
    exact congrArg (Symbol.Scan.symbol _) (by simp; omega)

/-! ## Texts -/

/-- The text is the spellings of the symbols, with white space before, between and after. -/
inductive Spelled : List Symbol → List Char → Prop where
  | nil : Spelled [] []
  | gap {c : Char} {symbols : List Symbol} {text : List Char} (hc : Symbol.isGap c = true)
    (h : Spelled symbols text) : Spelled symbols (c :: text)
  | symbol (s : Symbol) {symbols : List Symbol} {text : List Char} (h : Spelled symbols text) :
    Spelled (s :: symbols) (s.spelling ++ text)

namespace Spelled
variable {symbols symbols' : List Symbol} {text text' : List Char}

theorem single (s : Symbol) : Spelled [s] s.spelling := by
  have h := Spelled.symbol s .nil
  rwa [List.append_nil] at h

theorem append (h : Spelled symbols text) (h' : Spelled symbols' text') :
    Spelled (symbols ++ symbols') (text ++ text') := by
  induction h with
  | nil => exact h'
  | gap hc _ ih => exact .gap hc ih
  | symbol s _ ih =>
    rw [List.append_assoc, List.cons_append]
    exact .symbol s ih

end Spelled

/-- The rest of a symbol is passed over. -/
theorem scanAll_busy (front after : List Char) (offset line : Nat) :
    ∃ offset' line', Symbol.scanAll front.length offset line (front ++ after) =
      Symbol.scanAll 0 offset' line' after := by
  induction front generalizing offset line with
  | nil => exact ⟨offset, line, rfl⟩
  | cons c front ih =>
    rw [List.cons_append, List.length_cons]
    simp only [Symbol.scanAll]
    exact ih _ _

/-- A spelled text is cut into its symbols. -/
theorem scanAll_spelled {symbols : List Symbol} {text : List Char} (h : Spelled symbols text)
    (hcut : ∀ s ∈ symbols, s.IsCut) (hplain : ∀ s ∈ symbols, s.IsPlain) (offset line : Nat) :
    ∃ placed, Symbol.scanAll 0 offset line text = .ok placed ∧
      placed.map (·.symbol) = symbols := by
  induction h generalizing offset line with
  | nil => exact ⟨[], rfl, rfl⟩
  | gap hc _ ih =>
    simp only [Symbol.scanAll, hc, if_true]
    exact ih hcut hplain _ _
  | symbol s _ ih =>
    rename_i text _
    rw [List.forall_mem_cons] at hcut hplain
    obtain ⟨c, rest, hspelling, hc, hscan⟩ := scan_spelling hcut.1 hplain.1
    rw [hspelling, List.cons_append]
    simp only [Symbol.scanAll, hc, hscan, Nat.add_sub_cancel, Bool.false_eq_true, if_false]
    generalize offset + c.utf8Size = next
    generalize (if c = '\n' then line + 1 else line) = nextLine
    obtain ⟨offset', line', hbusy⟩ := scanAll_busy rest text next nextLine
    obtain ⟨placed, hplaced, hsymbols⟩ := ih hcut.2 hplain.2 offset' line'
    rw [hbusy, hplaced]
    exact ⟨_, rfl, by rw [List.map_cons, hsymbols]⟩

/-! ## Symbols of a text -/

/-- What is scanned as a name is one, with its closing bracket. -/
theorem exists_of_scanNamed {make : String → Symbol} {opening length : Nat} {body : List Char}
    {s : Symbol} (h : Symbol.scanNamed make opening body = .symbol s length) :
    ∃ name, IsName name ∧ ∃ after, body = name.toList ++ '>' :: after ∧ s = make name ∧
      length = opening + name.toList.length + 1 := by
  unfold Symbol.scanNamed at h
  by_cases hbegins : body.head?.any Symbol.beginsName = true
  · rw [if_pos hbegins] at h
    simp only at h
    split at h
    · rename_i after hdrop
      cases h
      refine ⟨String.ofList (body.takeWhile Symbol.continuesName), ⟨?_, ?_⟩, after, ?_, rfl, ?_⟩
      · cases body with
        | nil => cases hbegins
        | cons c rest =>
          have hc : Symbol.beginsName c = true := hbegins
          have hcontinues : Symbol.continuesName c = true := by
            unfold Symbol.beginsName at hc
            unfold Symbol.continuesName Char.isAlphanum
            rcases Bool.or_eq_true_iff.mp hc with hc | hc <;> simp [hc]
          simpa [List.takeWhile, hcontinues] using hc
      · intro c hc
        rw [String.toList_ofList] at hc
        exact List.all_eq_true.mp List.all_takeWhile c hc
      · -- the name is what stands before the bracket
        have hsplit : body.takeWhile Symbol.continuesName ++
            body.dropWhile Symbol.continuesName = body := List.takeWhile_append_dropWhile
        have hbehind := congrArg (List.drop (body.takeWhile Symbol.continuesName).length) hsplit
        rw [List.drop_left, hdrop] at hbehind
        rw [String.toList_ofList, ← hbehind, hsplit]
      · rw [String.toList_ofList]
    · cases h
  · rw [if_neg hbegins] at h
    cases h

/-- What is scanned as a name is one. -/
theorem isName_of_scanNamed {make : String → Symbol} {opening length : Nat} {body : List Char}
    {s : Symbol} (h : Symbol.scanNamed make opening body = .symbol s length) :
    ∃ name, s = make name ∧ IsName name := by
  obtain ⟨name, hname, _, _, hs, _⟩ := exists_of_scanNamed h
  exact ⟨name, hs, hname⟩

/-- What is scanned as a payload is empty only if it is closed at once. -/
theorem payload_of_scanQuoted {make : String → Symbol} {opening length : Nat} {stop : Char}
    {body : List Char} {s : Symbol}
    (h : Symbol.scanQuoted make opening stop body = .symbol s length) :
    ∃ text, s = make text ∧ (body.head? ≠ some stop → text.toList ≠ []) := by
  unfold Symbol.scanQuoted at h
  simp only at h
  split at h
  · rename_i c tail hdrop
    split at h
    · rename_i hc
      cases h
      refine ⟨_, rfl, fun hhead hnil => ?_⟩
      rw [String.toList_ofList] at hnil
      have hlength : Symbol.payloadLength stop body ≠ 0 := by
        intro hzero
        rw [hzero, List.drop_zero] at hdrop
        rw [hdrop, List.head?_cons, eq_of_beq hc] at hhead
        exact hhead rfl
      cases body with
      | nil => simp at hdrop
      | cons d body =>
        obtain ⟨n, hn⟩ := Nat.exists_eq_succ_of_ne_zero hlength
        rw [hn, List.take_succ_cons] at hnil
        unfold Symbol.unescape at hnil
        split at hnil <;> simp_all
    · cases h
  · cases h

theorem isCut_of_scan {c : Char} {rest : List Char} {s : Symbol} {length : Nat}
    (h : Symbol.scan c rest = .symbol s length) : s.IsCut := by
  unfold Symbol.scan at h
  split at h
  -- the symbols without a payload
  iterate 7 (cases h; trivial)
  · obtain ⟨name, rfl, hname⟩ := isName_of_scanNamed h
    exact hname
  · obtain ⟨name, rfl, hname⟩ := isName_of_scanNamed h
    exact hname
  · obtain ⟨name, rfl, hname⟩ := isName_of_scanNamed h
    exact hname
  · obtain ⟨text, rfl, _⟩ := payload_of_scanQuoted h
    trivial
  · obtain ⟨text, rfl, _⟩ := payload_of_scanQuoted h
    trivial
  · cases h
    trivial
  · obtain ⟨text, rfl, _⟩ := payload_of_scanQuoted h
    trivial
  · split at h
    · cases h
    · rename_i hhead
      obtain ⟨text, rfl, hnonempty⟩ := payload_of_scanQuoted h
      refine hnonempty fun hclosed => hhead ?_
      rw [hclosed]
      decide
  · cases h

/-- Every symbol that was cut from a text is as its spelling asks for. -/
theorem isCut_of_scanAll {text : List Char} {busy offset line : Nat} {placed : List PlacedSymbol}
    (h : Symbol.scanAll busy offset line text = .ok placed) : ∀ p ∈ placed, p.symbol.IsCut := by
  induction text generalizing busy offset line placed with
  | nil =>
    cases h
    simp
  | cons c rest ih =>
    cases busy with
    | succ busy => exact ih h
    | zero =>
      simp only [Symbol.scanAll] at h
      split at h
      · exact ih h
      · cases hscan : Symbol.scan c rest with
        | unrecognised length =>
          rw [hscan] at h
          cases h
        | symbol s length =>
          rw [hscan] at h
          simp only at h
          generalize offset + c.utf8Size = next at h
          generalize (if c = '\n' then line + 1 else line) = nextLine at h
          cases hrest : Symbol.scanAll (length - 1) next nextLine rest with
          | error stray =>
            rw [hrest] at h
            cases h
          | ok symbols =>
            rw [hrest] at h
            cases h
            rw [List.forall_mem_cons]
            exact ⟨isCut_of_scan hscan, ih hrest⟩

end Compositing.Grammar
