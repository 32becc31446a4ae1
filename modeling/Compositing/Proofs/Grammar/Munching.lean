import Compositing.Proofs.Grammar.Patterns
import Compositing.Proofs.Text.Advance

/-! # Longest match

    A grammar text is cut from the left: white space is passed, and elsewhere
    the longest lexeme ahead is a symbol.  Scanning agrees with the patterns of
    the symbols: it finds a symbol where a lexeme stands, whatever follows the
    lexeme, and nowhere else.  So the symbols of a text are those that cutting
    yields, and a text is refused on the line where cutting is stuck. -/

namespace Compositing.Grammar

open Computability TokenKind

/-! ## Payloads -/

section
variable {stop : Char} {make : String → Symbol} {opening length : Nat} {s : Symbol}

/-- A payload ends at the closing character behind it. -/
theorem payloadLength_append (hstop : stop ≠ '\\') {payload : List Char}
    (h : payload ∈ (item [stop])∗) (after : List Char) :
    Symbol.payloadLength stop (payload ++ stop :: after) = payload.length := by
  obtain ⟨pieces, rfl, hpieces⟩ := Language.mem_kstar.mp h
  -- by induction on the items, as each is passed in one step of the count
  have hgo : ∀ taken, Symbol.payloadLength.go stop taken (pieces.flatten ++ stop :: after) =
      taken + pieces.flatten.length := by
    clear h
    induction pieces with
    | nil =>
      intro taken
      show Symbol.payloadLength.go stop taken (stop :: after) = taken
      rw [Symbol.payloadLength.go.eq_2 _ _ _ _ fun _ _ h => absurd h hstop]
      simp
    | cons piece pieces ih =>
      intro taken
      obtain ⟨hpiece, hmore⟩ := List.forall_mem_cons.mp hpieces
      rw [List.flatten_cons, List.append_assoc, List.length_append]
      rcases mem_item.mp hpiece with ⟨c, ⟨hc, hslash⟩, rfl⟩ | ⟨c, hc, rfl⟩
      · have hne : c ≠ stop := by simpa using hc
        rw [List.singleton_append,
          Symbol.payloadLength.go.eq_2 _ _ _ _ fun _ _ h => absurd h hslash,
          if_neg (by simp [hne, hslash]), ih hmore, List.length_singleton]
        omega
      · show Symbol.payloadLength.go stop taken ('\\' :: c :: _) = _
        have hstep := ih hmore (taken + 2)
        rw [Symbol.payloadLength.go, if_neg (by simpa using hc)]
        simp only [List.append_eq, List.nil_append, hstep, List.length_cons, List.length_nil]
        omega
  rw [Symbol.payloadLength, hgo, Nat.zero_add]

/-- What is taken for a payload is made of items. -/
theorem exists_payload (stop : Char) (text : List Char) :
    ∃ payload rest, text = payload ++ rest ∧ payload ∈ (item [stop])∗ ∧
      Symbol.payloadLength stop text = payload.length := by
  have hgo : ∀ taken, ∃ payload rest, text = payload ++ rest ∧ payload ∈ (item [stop])∗ ∧
      Symbol.payloadLength.go stop taken text = taken + payload.length := by
    intro taken
    fun_induction Symbol.payloadLength.go stop taken text with
    | case1 taken c rest hline => exact ⟨[], _, rfl, Language.nil_mem_kstar _, rfl⟩
    | case2 taken c rest hline ih =>
      obtain ⟨payload, after, hrest, hpayload, hlength⟩ := ih
      have hitem : ['\\', c] ∈ item [stop] :=
        mem_item.mpr (.inr ⟨c, by simpa using hline, rfl⟩)
      refine ⟨['\\', c] ++ payload, after, ?_, append_mem_kstar hitem hpayload, ?_⟩
      · rw [hrest, List.append_assoc]
        rfl
      · rw [hlength, List.length_append]
        simp only [List.length_cons, List.length_nil]
        omega
    | case3 taken c rest _ hends => exact ⟨[], _, rfl, Language.nil_mem_kstar _, rfl⟩
    | case4 taken c rest _ hends ih =>
      obtain ⟨payload, after, hrest, hpayload, hlength⟩ := ih
      have hitem : [c] ∈ item [stop] := mem_item.mpr (.inl ⟨c, by simpa using hends, rfl⟩)
      refine ⟨[c] ++ payload, after, ?_, append_mem_kstar hitem hpayload, ?_⟩
      · rw [hrest, List.append_assoc]
        rfl
      · rw [hlength, List.length_append, List.length_singleton]
        omega
    | case5 taken => exact ⟨[], [], rfl, Language.nil_mem_kstar _, rfl⟩
  obtain ⟨payload, rest, htext, hpayload, hlength⟩ := hgo 0
  exact ⟨payload, rest, htext, hpayload, by rw [Symbol.payloadLength, hlength, Nat.zero_add]⟩

theorem scanQuoted_append (make : String → Symbol) (opening : Nat) (hstop : stop ≠ '\\')
    {payload : List Char} (h : payload ∈ (item [stop])∗) (after : List Char) :
    Symbol.scanQuoted make opening stop (payload ++ stop :: after) =
      .symbol (make (String.ofList (Symbol.unescape payload))) (opening + payload.length + 1) := by
  unfold Symbol.scanQuoted
  simp [payloadLength_append hstop h]

/-- What is scanned as a quotation is a payload with its closing character. -/
theorem exists_of_scanQuoted {body : List Char}
    (h : Symbol.scanQuoted make opening stop body = .symbol s length) :
    ∃ payload ∈ (item [stop])∗, ∃ after, body = payload ++ stop :: after ∧
      s = make (String.ofList (Symbol.unescape payload)) ∧
      length = opening + payload.length + 1 := by
  obtain ⟨payload, rest, rfl, hpayload, hlength⟩ := exists_payload stop body
  unfold Symbol.scanQuoted at h
  simp only [hlength, List.drop_left, List.take_left] at h
  cases rest with
  | nil => cases h
  | cons c after =>
    by_cases hc : c = stop
    · simp only [hc, beq_self_eq_true, if_true] at h
      cases h
      exact ⟨payload, hpayload, after, by rw [hc], rfl, rfl⟩
    · simp only [beq_iff_eq, hc, if_false] at h
      cases h

end

/-! ## Scanning a symbol -/

/-- The text is scanned to the symbol, whatever follows. -/
def Scans (lexeme : List Char) (s : Symbol) : Prop :=
  ∃ c tail, lexeme = c :: tail ∧ Symbol.isGap c = false ∧
    ∀ after, Symbol.scan c (tail ++ after) = .symbol s lexeme.length

section
variable {k : TokenKind} {lexeme : List Char} {s : Symbol}

theorem scans_mark (hk : k ∈ marks) (h : k.Reads lexeme s) : Scans lexeme s := by
  simp only [marks, List.mem_cons, List.not_mem_nil, or_false] at hk
  rcases hk with rfl | rfl | rfl | rfl | rfl | rfl | rfl | rfl
  all_goals
    obtain ⟨rfl, rfl⟩ := reads_mark.mp h
    exact ⟨_, _, rfl, by decide, fun after => rfl⟩

/-- A name is scanned to its symbol, if what opens it leads to the scan of a name. -/
theorem scans_named (c : Char) (tail : List Char) (make : String → Symbol)
    (hgap : Symbol.isGap c = false)
    (hscan : ∀ {name}, IsName name → ∀ after, Symbol.scan c (tail ++ (name.toList ++ after)) =
      Symbol.scanNamed make (tail.length + 1) (name.toList ++ after))
    (h : (named (c :: tail) make).Reads lexeme s) : Scans lexeme s := by
  obtain ⟨name, hname, rfl, rfl⟩ := reads_named.mp h
  refine ⟨c, tail ++ (name.toList ++ ['>']), by simp, hgap, ?_⟩
  intro after
  rw [List.append_assoc, List.append_assoc, hscan hname, List.singleton_append,
    scanNamed_name _ _ hname]
  simp only [List.length_append, List.length_cons, List.length_nil]

theorem scans_name (hk : k ∈ names) (h : k.Reads lexeme s) : Scans lexeme s := by
  simp only [names, List.mem_cons, List.not_mem_nil, or_false] at hk
  rcases hk with rfl | rfl | rfl
  · exact scans_named '<' [] .rule (by decide) scan_name h
  · exact scans_named '<' ['#'] .number (by decide) (fun _ _ => rfl) h
  · exact scans_named '<' ['@'] .label (by decide) (fun _ _ => rfl) h

/-- A quotation is scanned to its symbol, if what opens it leads to the scan of its payload. -/
theorem scans_quoted (c : Char) (tail : List Char) (stop : Char) (make : String → Symbol)
    (hgap : Symbol.isGap c = false) (hstop : stop ≠ '\\')
    (hscan : ∀ body, Symbol.scan c (tail ++ body) =
      Symbol.scanQuoted make (tail.length + 1) stop body)
    (h : (quoted (c :: tail) stop make).Reads lexeme s) : Scans lexeme s := by
  obtain ⟨payload, hpayload, rfl, rfl⟩ := reads_quoted.mp h
  refine ⟨c, tail ++ (payload ++ [stop]), by simp, hgap, ?_⟩
  intro after
  rw [List.append_assoc, List.append_assoc, hscan, List.singleton_append,
    scanQuoted_append _ _ hstop hpayload]
  simp only [List.length_append, List.length_cons, List.length_nil]

/-- A parenthesis before what no other symbol has behind it opens a class to include. -/
theorem scan_included {first : List Char} (h : first ∈ item ['!', '?', ')'])
    (rest : List Char) :
    Symbol.scan '(' (first ++ rest) = Symbol.scanQuoted .includeClass 1 ')' (first ++ rest) := by
  obtain ⟨d, tail, rfl, hd⟩ : ∃ d tail, first = d :: tail ∧ d ∉ ['!', '?', ')'] := by
    rcases mem_item.mp h with ⟨c, ⟨hc, _⟩, rfl⟩ | ⟨c, _, rfl⟩
    · exact ⟨c, [], rfl, hc⟩
    · exact ⟨'\\', [c], rfl, by decide⟩
  simp only [List.mem_cons, List.not_mem_nil, or_false, not_or] at hd
  obtain ⟨hexclude, hlookahead, hclose⟩ := hd
  rw [List.cons_append]
  unfold Symbol.scan
  split <;> simp_all

/-- An item stays one when fewer characters are barred from it. -/
theorem item_le {others others' : List Char} (h : others' ⊆ others) :
    ∀ text ∈ item others, text ∈ item others' := by
  intro text htext
  rcases mem_item.mp htext with ⟨c, ⟨hc, hslash⟩, rfl⟩ | hescape
  · exact mem_item.mpr (.inl ⟨c, ⟨fun hmem => hc (h hmem), hslash⟩, rfl⟩)
  · exact mem_item.mpr (.inr hescape)

theorem scans_quotation (hk : k ∈ quotations) (h : k.Reads lexeme s) : Scans lexeme s := by
  simp only [quotations, List.mem_cons, List.not_mem_nil, or_false] at hk
  rcases hk with rfl | rfl | rfl | rfl
  · exact scans_quoted '\'' [] '\'' .terminal (by decide) (by decide) (fun _ => rfl) h
  · exact scans_quoted '-' ['\''] '\'' .silentTerminal (by decide) (by decide) (fun _ => rfl) h
  · exact scans_quoted '(' ['!'] ')' .excludeClass (by decide) (by decide) (fun _ => rfl) h
  · obtain ⟨first, hfirst, more, hmore, rfl, rfl⟩ := reads_included.mp h
    have hitem : first ∈ item [')'] := item_le (by simp) first hfirst
    refine ⟨_, _, rfl, by decide, fun after => ?_⟩
    show Symbol.scan '(' (((first ++ more) ++ [')']) ++ after) = _
    rw [List.append_assoc, List.append_assoc, scan_included hfirst, ← List.append_assoc,
      List.singleton_append, scanQuoted_append _ _ (by decide) (append_mem_kstar hitem hmore)]
    simp only [List.length_append, List.length_cons, List.length_nil]
    congr 1
    omega

/-- A lexeme is scanned to the symbol that it spells. -/
theorem scans_of_reads (hk : k ∈ TokenKind.all) (h : k.Reads lexeme s) : Scans lexeme s := by
  rcases List.mem_append.mp hk with hk | hk
  · rcases List.mem_append.mp hk with hk | hk
    · exact scans_mark hk h
    · exact scans_name hk h
  · exact scans_quotation hk h

end

/-- A lexeme that spells the symbol stands at the beginning of the text. -/
def IsAhead (text : List Char) (s : Symbol) (length : Nat) : Prop :=
  ∃ k ∈ TokenKind.all, ∃ lexeme after, text = lexeme ++ after ∧ lexeme.length = length ∧
    k.Reads lexeme s

section
variable {body after : List Char} {s : Symbol} {length : Nat}

theorem isAhead_mark (lexeme : List Char) (t : Symbol) (hk : mark lexeme t ∈ marks)
    (h : Symbol.Scan.symbol t lexeme.length = .symbol s length) :
    IsAhead (lexeme ++ after) s length := by
  cases h
  refine ⟨_, ?_, lexeme, after, rfl, rfl, reads_mark.mpr ⟨rfl, rfl⟩⟩
  exact List.mem_append_left _ (List.mem_append_left _ hk)

theorem isAhead_named (opening : List Char) (make : String → Symbol)
    (hk : named opening make ∈ names)
    (h : Symbol.scanNamed make opening.length body = .symbol s length) :
    IsAhead (opening ++ body) s length := by
  obtain ⟨name, hname, after, rfl, rfl, rfl⟩ := exists_of_scanNamed h
  refine ⟨_, ?_, opening ++ name.toList ++ ['>'], after, by simp, ?_,
    reads_named.mpr ⟨name, hname, rfl, rfl⟩⟩
  · exact List.mem_append_left _ (List.mem_append_right _ hk)
  · simp only [List.length_append, List.length_singleton]

theorem isAhead_quoted (opening : List Char) (stop : Char) (make : String → Symbol)
    (hk : quoted opening stop make ∈ quotations)
    (h : Symbol.scanQuoted make opening.length stop body = .symbol s length) :
    IsAhead (opening ++ body) s length := by
  obtain ⟨payload, hpayload, after, rfl, rfl, rfl⟩ := exists_of_scanQuoted h
  refine ⟨_, ?_, opening ++ payload ++ [stop], after, by simp, ?_,
    reads_quoted.mpr ⟨payload, hpayload, rfl, rfl⟩⟩
  · exact List.mem_append_right _ hk
  · simp only [List.length_append, List.length_singleton]

/-- A payload that does not begin as other symbols do is a class to include. -/
theorem isAhead_included (hhead : ∀ c ∈ body.head?, c ∉ ['!', '?', ')'])
    (h : Symbol.scanQuoted .includeClass 1 ')' body = .symbol s length) :
    IsAhead ('(' :: body) s length := by
  obtain ⟨payload, hpayload, after, rfl, rfl, rfl⟩ := exists_of_scanQuoted h
  rcases cases_of_mem_kstar hpayload with rfl | ⟨first, hfirst, more, hmore, rfl⟩
  · exact absurd (by simp) (hhead ')' rfl)
  · have hitem : first ∈ item ['!', '?', ')'] := by
      rcases mem_item.mp hfirst with ⟨c, ⟨_, hslash⟩, rfl⟩ | hescape
      · exact mem_item.mpr (.inl ⟨c, ⟨hhead c rfl, hslash⟩, rfl⟩)
      · exact mem_item.mpr (.inr hescape)
    refine ⟨included, ?_, '(' :: (first ++ more) ++ [')'], after, by simp, ?_,
      reads_included.mpr ⟨first, hitem, more, hmore, rfl, rfl⟩⟩
    · exact List.mem_append_right _ (by simp [quotations])
    · simp only [List.length_append, List.length_cons, List.length_nil]
      omega

/-- What is scanned to a symbol begins with a lexeme that spells it. -/
theorem isAhead_of_scan {c : Char} {rest : List Char}
    (h : Symbol.scan c rest = .symbol s length) : IsAhead (c :: rest) s length := by
  unfold Symbol.scan at h
  split at h
  · exact isAhead_mark [':', ':', '='] .define (by simp [marks]) h
  · exact isAhead_mark ['|'] .or (by simp [marks]) h
  · exact isAhead_mark ['\x7b'] .repeatOpen (by simp [marks]) h
  · exact isAhead_mark ['\x7d'] .repeatClose (by simp [marks]) h
  · exact isAhead_mark ['['] .optionalOpen (by simp [marks]) h
  · exact isAhead_mark [']'] .optionalClose (by simp [marks]) h
  · exact isAhead_mark [')'] .groupClose (by simp [marks]) h
  · exact isAhead_named ['<', '#'] .number (by simp [names]) h
  · exact isAhead_named ['<', '@'] .label (by simp [names]) h
  · exact isAhead_named ['<'] .rule (by simp [names]) h
  · exact isAhead_quoted ['\''] '\'' .terminal (by simp [quotations]) h
  · exact isAhead_quoted ['-', '\''] '\'' .silentTerminal (by simp [quotations]) h
  · exact isAhead_mark ['(', '?', '!'] .lookaheadOpen (by simp [marks]) h
  · exact isAhead_quoted ['(', '!'] ')' .excludeClass (by simp [quotations]) h
  · rename_i hexclude
    split at h
    · cases h
    · rename_i hhead
      refine isAhead_included ?_ h
      intro d hd
      obtain ⟨tail, rfl⟩ := List.head?_eq_some_iff.mp hd
      have hexclude' : d ≠ '!' := fun heq => hexclude tail (by rw [heq])
      simp only [List.head?_cons, Option.any_some, Bool.or_eq_true, beq_iff_eq, not_or] at hhead
      simp [hexclude', hhead]
  · cases h

end

/-! ## Cutting -/

/-- The white space that may stand between symbols. -/
def gapCharacters : List Char := [' ', '\t', '\r', '\n', '\x0c']

theorem isGap_iff {c : Char} : Symbol.isGap c = true ↔ c ∈ gapCharacters := by
  simp [Symbol.isGap, gapCharacters, or_assoc]

/-- A lexeme of the kind that a text begins with, and no kind has a longer one there. -/
structure IsLongest (k : TokenKind) (lexeme text : List Char) : Prop where
  kind : k ∈ TokenKind.all
  pattern : lexeme ∈ k.pattern
  ahead : lexeme <+: text
  longest : ∀ k' ∈ TokenKind.all, ∀ lexeme' ∈ k'.pattern, lexeme' <+: text →
    lexeme'.length ≤ lexeme.length

/-- Cutting what is ahead from the left by longest match yields these symbols up to the second
    position, with nothing but white space between them. -/
inductive Cuts : Position → List PlacedSymbol → Position → Prop where
  | here {p} : Cuts p [] p
  | gap {p q c rest symbols} (hrest : p.rest = c :: rest) (hc : c ∈ gapCharacters)
    (h : Cuts (p.advance 1) symbols q) : Cuts p symbols q
  | symbol {p q k lexeme s symbols} (hlongest : IsLongest k lexeme p.rest)
    (hreads : k.Reads lexeme s) (h : Cuts (p.advance lexeme.length) symbols q) :
    Cuts p (⟨s, p.offset, (p.advance lexeme.length).offset, p.line⟩ :: symbols) q

/-- Something is ahead that is neither white space nor begins with a lexeme. -/
structure IsStuck (text : List Char) : Prop where
  head : ∃ c rest, text = c :: rest ∧ c ∉ gapCharacters
  none : ∀ k ∈ TokenKind.all, ∀ lexeme ∈ k.pattern, ¬ lexeme <+: text

section
variable {k : TokenKind} {lexeme text : List Char} {s : Symbol}

/-- Where a lexeme is ahead, its symbol is what is scanned. -/
theorem scan_of_reads (hk : k ∈ TokenKind.all) (h : k.Reads lexeme s) (hahead : lexeme <+: text) :
    ∃ c rest, text = c :: rest ∧ c ∉ gapCharacters ∧
      Symbol.scan c rest = .symbol s lexeme.length := by
  obtain ⟨c, tail, hlexeme, hc, hscan⟩ := scans_of_reads hk h
  obtain ⟨after, rfl⟩ := hahead
  refine ⟨c, tail ++ after, by rw [hlexeme]; rfl, ?_, hscan after⟩
  rw [← isGap_iff, hc]
  decide

/-- Lexemes ahead of the same text are equally long, so each is the longest. -/
theorem isLongest_of_reads (hk : k ∈ TokenKind.all) (h : k.Reads lexeme s)
    (hahead : lexeme <+: text) : IsLongest k lexeme text := by
  refine ⟨hk, h.mem_pattern, hahead, ?_⟩
  intro k' hk' lexeme' hlexeme' hahead'
  obtain ⟨s', h'⟩ := exists_reads hlexeme'
  obtain ⟨c, rest, htext, _, hscan⟩ := scan_of_reads hk h hahead
  obtain ⟨c', rest', htext', _, hscan'⟩ := scan_of_reads hk' h' hahead'
  have heq : c = c' ∧ rest = rest' := by simpa [htext] using htext'
  rw [← heq.1, ← heq.2, hscan] at hscan'
  have hlength := (Symbol.Scan.symbol.inj hscan').2
  omega

end

/-! ## Scanning at a position -/

/-- The symbols ahead of a position. -/
def scanFrom (p : Position) : Except Symbol.Unrecognised (List PlacedSymbol) :=
  Symbol.scanAll 0 p.offset p.line p.rest

section
variable {p q : Position} {c : Char} {rest : List Char} {symbols : List PlacedSymbol}

/-- The rest of a symbol is passed over. -/
theorem scanAll_eq_scanFrom (busy : Nat) (p : Position) :
    Symbol.scanAll busy p.offset p.line p.rest = scanFrom (p.advance busy) := by
  induction busy generalizing p with
  | zero => rw [Position.advance_zero]; rfl
  | succ busy ih =>
    obtain ⟨text, offset, line⟩ := p
    cases text with
    | nil => rfl
    | cons c rest => exact ih ⟨rest, offset + c.utf8Size, if c = '\n' then line + 1 else line⟩

theorem scanFrom_nil (hrest : p.rest = []) : scanFrom p = .ok [] := by
  rw [scanFrom, hrest]
  rfl

theorem scanFrom_gap (hrest : p.rest = c :: rest) (hc : c ∈ gapCharacters) :
    scanFrom p = scanFrom (p.advance 1) := by
  rw [← isGap_iff] at hc
  obtain ⟨text, offset, line⟩ := p
  simp only at hrest
  rw [scanFrom, hrest]
  simp only [Symbol.scanAll, hc, if_true]
  rfl

theorem scanFrom_symbol {s : Symbol} {length : Nat} (hrest : p.rest = c :: rest)
    (hc : c ∉ gapCharacters) (hscan : Symbol.scan c rest = .symbol s length)
    (hlength : 0 < length) :
    scanFrom p = (scanFrom (p.advance length)).map
      (⟨s, p.offset, (p.advance length).offset, p.line⟩ :: ·) := by
  rw [← isGap_iff] at hc
  have hmove : p.advance length = (p.advance 1).advance (length - 1) := by
    rw [← Position.advance_add]
    congr 1
    omega
  rw [hmove, ← scanAll_eq_scanFrom, ← hmove, Position.advance_offset]
  obtain ⟨text, offset, line⟩ := p
  simp only at hrest
  rw [scanFrom, hrest]
  simp only [Symbol.scanAll, hc, hscan]
  rfl

theorem scanFrom_unrecognised {length : Nat} (hrest : p.rest = c :: rest)
    (hc : c ∉ gapCharacters) (hscan : Symbol.scan c rest = .unrecognised length) :
    ∃ stray, scanFrom p = .error stray ∧ stray.line = p.line := by
  rw [← isGap_iff] at hc
  rw [scanFrom, hrest]
  simp only [Symbol.scanAll, hc, hscan]
  exact ⟨_, rfl, rfl⟩

/-! ## Longest match -/

/-- What is cut is scanned, and scanning goes on from where cutting has come. -/
theorem Cuts.scanFrom_eq (h : Cuts p symbols q) :
    scanFrom p = (scanFrom q).map (symbols ++ ·) := by
  induction h with
  | @here p =>
    cases hscan : scanFrom p <;> simp [Except.map]
  | gap hrest hc _ ih => rw [scanFrom_gap hrest hc, ih]
  | @symbol p q k lexeme s symbols hlongest hreads _ ih =>
    obtain ⟨c, rest, hrest, hc, hscan⟩ := scan_of_reads hlongest.kind hreads hlongest.ahead
    have hlength : 0 < lexeme.length := by
      obtain ⟨_, _, hlexeme, _⟩ := scans_of_reads hlongest.kind hreads
      rw [hlexeme]
      exact Nat.succ_pos _
    rw [scanFrom_symbol hrest hc hscan hlength, ih]
    cases hscan : scanFrom q <;> simp [Except.map]

/-- Where cutting is stuck nothing is recognised. -/
theorem IsStuck.scanFrom_eq (h : IsStuck p.rest) :
    ∃ stray, scanFrom p = .error stray ∧ stray.line = p.line := by
  obtain ⟨c, rest, hrest, hc⟩ := h.head
  cases hscan : Symbol.scan c rest with
  | unrecognised length => exact scanFrom_unrecognised hrest hc hscan
  | symbol s length =>
    obtain ⟨k, hk, lexeme, after, htext, _, hreads⟩ := isAhead_of_scan hscan
    have hahead : lexeme <+: p.rest := ⟨after, by rw [hrest, htext]⟩
    exact absurd hahead (h.none k hk lexeme hreads.mem_pattern)

/-- Cutting comes to the end of the text or is stuck before. -/
theorem exists_cuts (p : Position) :
    ∃ symbols q, Cuts p symbols q ∧ (q.rest = [] ∨ IsStuck q.rest) := by
  cases hrest : p.rest with
  | nil => exact ⟨[], p, .here, .inl hrest⟩
  | cons c rest =>
    by_cases hc : c ∈ gapCharacters
    · obtain ⟨symbols, q, hcuts, hend⟩ := exists_cuts (p.advance 1)
      exact ⟨symbols, q, .gap hrest hc hcuts, hend⟩
    · cases hscan : Symbol.scan c rest with
      | symbol s length =>
        obtain ⟨k, hk, lexeme, after, htext, hlexeme, hreads⟩ := isAhead_of_scan hscan
        have hahead : lexeme <+: p.rest := ⟨after, by rw [hrest, htext]⟩
        obtain ⟨symbols, q, hcuts, hend⟩ := exists_cuts (p.advance lexeme.length)
        exact ⟨_, q, .symbol (isLongest_of_reads hk hreads hahead) hreads hcuts, hend⟩
      | unrecognised length =>
        refine ⟨[], p, .here, .inr ⟨⟨c, rest, hrest, hc⟩, ?_⟩⟩
        -- a lexeme that is ahead would be scanned
        intro k hk lexeme hlexeme hahead
        obtain ⟨s, hreads⟩ := exists_reads hlexeme
        obtain ⟨c', rest', htext, _, hscan'⟩ := scan_of_reads hk hreads hahead
        have heq : c = c' ∧ rest = rest' := by simpa [hrest] using htext
        rw [← heq.1, ← heq.2, hscan] at hscan'
        cases hscan'
termination_by p.rest.length
decreasing_by
  · simp [hrest]
  · obtain ⟨d, tail, hshape, _⟩ := scans_of_reads hk hreads
    rw [Position.advance_rest, List.length_drop, hrest, hshape]
    simp only [List.length_cons]
    omega

/-! ## Where the symbols stand -/

/-- A lexeme that spells the symbol stands in the text where the symbol says. -/
def StandsIn (text : List Char) (a : PlacedSymbol) : Prop :=
  ∃ before lexeme after, text = before ++ lexeme ++ after ∧ lexeme ≠ [] ∧
    a.start = Text.byteLength before ∧ a.stop = Text.byteLength (before ++ lexeme) ∧
    a.line = 1 + Text.newlines before ∧ ∃ k ∈ TokenKind.all, k.Reads lexeme a.symbol

theorem StandsIn.start_lt_stop {text : List Char} {a : PlacedSymbol} (h : StandsIn text a) :
    a.start < a.stop := by
  obtain ⟨before, lexeme, _, _, hne, hstart, hstop, _⟩ := h
  have hbytes : Text.byteLength lexeme ≠ 0 := by
    intro hzero
    exact hne (Text.byteLength_eq_zero_iff.mp hzero)
  rw [hstart, hstop, Text.byteLength_append]
  omega

theorem Cuts.reaches (h : Cuts p symbols q) : p.Reaches q := by
  induction h with
  | here => exact Position.Reaches.refl _
  | gap _ _ _ ih => exact .trans ⟨1, rfl⟩ ih
  | symbol _ _ _ ih => exact .trans ⟨_, rfl⟩ ih

theorem Cuts.standsIn (h : Cuts p symbols q) (before after : List Char)
    (hp : p = .between before after) : ∀ a ∈ symbols, StandsIn (before ++ after) a := by
  induction h generalizing before after with
  | here => simp
  | @gap p q c rest symbols hrest _ _ ih =>
    subst hp
    have hafter : after = c :: rest := hrest
    have htail := ih _ _ (Position.between_advance 1 before after)
    rwa [List.append_assoc, List.take_append_drop] at htail
  | @symbol p q k lexeme s symbols hlongest hreads _ ih =>
    subst hp
    obtain ⟨behind, hbehind⟩ := hlongest.ahead
    have hafter : after = lexeme ++ behind := hbehind.symm
    have hmoved := Position.between_advance_length before lexeme behind
    rw [← hafter] at hmoved
    have htail := ih _ _ hmoved
    rw [List.append_assoc, ← hafter] at htail
    refine List.forall_mem_cons.mpr ⟨?_, htail⟩
    refine ⟨before, lexeme, behind, ?_, ?_, rfl, ?_, rfl, k, hlongest.kind, hreads⟩
    · rw [hafter, List.append_assoc]
    · obtain ⟨_, _, hlexeme, _⟩ := scans_of_reads hlongest.kind hreads
      rw [hlexeme]
      exact List.cons_ne_nil _ _
    · rw [hmoved]
      rfl

theorem Cuts.ordered (h : Cuts p symbols q) :
    (∀ a ∈ symbols, p.offset ≤ a.start) ∧ symbols.Pairwise fun a b => a.stop ≤ b.start := by
  induction h with
  | here => simp
  | @gap p q c rest symbols hrest _ _ ih =>
    have hforward := Position.advance_offset 1 p
    refine ⟨fun a ha => ?_, ih.2⟩
    have hstart := ih.1 a ha
    omega
  | @symbol p q k lexeme s symbols _ _ _ ih =>
    have hforward := Position.advance_offset lexeme.length p
    refine ⟨List.forall_mem_cons.mpr ⟨Nat.le_refl _, fun a ha => ?_⟩, ?_⟩
    · have hstart := ih.1 a ha
      omega
    · exact List.pairwise_cons.mpr ⟨fun a ha => ih.1 a ha, ih.2⟩

/-- A character of a text that begins with a lexeme is behind the lexeme, or a part of it. -/
theorem behind_or_within {lexeme behind passed rest : List Char} {c : Char}
    (h : lexeme ++ behind = passed ++ c :: rest) :
    (∃ more, passed = lexeme ++ more ∧ behind = more ++ c :: rest) ∨
      ∃ more, lexeme = passed ++ c :: more := by
  rcases List.append_eq_append_iff.mp h with ⟨more, hpassed, hbehind⟩ | ⟨more, hlexeme, hrest⟩
  · exact .inl ⟨more, hpassed, hbehind⟩
  · cases more with
    | nil => exact .inl ⟨[], by simpa using hlexeme.symm, by simpa using hrest.symm⟩
    | cons d more =>
      obtain ⟨rfl, _⟩ := List.cons.inj hrest
      exact .inr ⟨more, hlexeme⟩

/-- A character outside of all symbols is white space. -/
theorem Cuts.covers (h : Cuts p symbols q) (hend : q.rest = []) {passed rest : List Char}
    {c : Char} (hrest : p.rest = passed ++ c :: rest) :
    (∃ a ∈ symbols, a.start ≤ p.offset + Text.byteLength passed ∧
      p.offset + Text.byteLength passed < a.stop) ∨ c ∈ gapCharacters := by
  induction h generalizing passed with
  | here =>
    rw [hend] at hrest
    simp at hrest
  | @gap p q d rest' symbols hgap hd _ ih =>
    cases passed with
    | nil =>
      have heq : d = c := by
        rw [hgap] at hrest
        exact (List.cons.inj hrest).1
      exact .inr (heq ▸ hd)
    | cons e passed =>
      have hmoved : (p.advance 1).rest = passed ++ c :: rest := by
        rw [Position.advance_rest, hrest]
        rfl
      have hoffset : (p.advance 1).offset = p.offset + e.utf8Size := by
        rw [Position.advance_offset, hrest]
        simp
      have htail := ih hend hmoved
      rwa [hoffset, Nat.add_assoc, ← Text.byteLength_cons] at htail
  | @symbol p q k lexeme s symbols hlongest _ _ ih =>
    obtain ⟨behind, hbehind⟩ := hlongest.ahead
    have hmoved : (p.advance lexeme.length).rest = behind := by
      rw [Position.advance_rest, ← hbehind, List.drop_left]
    have hoffset : (p.advance lexeme.length).offset = p.offset + Text.byteLength lexeme := by
      rw [Position.advance_offset, ← hbehind, List.take_left]
    rcases behind_or_within (hbehind.trans hrest) with ⟨more, hpassed, hmore⟩ | ⟨more, hlexeme⟩
    · rcases ih hend (hmoved.trans hmore) with ⟨a, ha, hcovers⟩ | hgap
      · rw [hoffset, Nat.add_assoc, ← Text.byteLength_append, ← hpassed] at hcovers
        exact .inl ⟨a, List.mem_cons_of_mem _ ha, hcovers⟩
      · exact .inr hgap
    · have hsize := c.utf8Size_pos
      refine .inl ⟨_, List.mem_cons_self, Nat.le_add_right _ _, ?_⟩
      show p.offset + Text.byteLength passed < (p.advance lexeme.length).offset
      rw [hoffset, hlexeme, Text.byteLength_append, Text.byteLength_cons]
      omega

end

/-! ## Texts -/

section
variable {text before after : List Char} {symbols : List PlacedSymbol}

/-- A text that is cut to its end has the symbols that are cut. -/
theorem Cuts.ofText?_eq_ok (h : Cuts (.start text) symbols (.between text [])) :
    Symbol.ofText? text = .ok symbols := by
  show scanFrom (.start text) = _
  rw [h.scanFrom_eq, scanFrom_nil rfl]
  simp [Except.map]

/-- A text that cutting gets stuck in is refused on the line of the place. -/
theorem Cuts.ofText?_eq_error (h : Cuts (.start text) symbols (.between before after))
    (hstuck : IsStuck after) :
    ∃ stray, Symbol.ofText? text = .error stray ∧ stray.line = 1 + Text.newlines before := by
  obtain ⟨stray, hstray, hline⟩ := IsStuck.scanFrom_eq (p := .between before after) hstuck
  refine ⟨stray, ?_, hline⟩
  show scanFrom (.start text) = _
  rw [h.scanFrom_eq, hstray]
  rfl

/-- Cutting comes to the end of a text or gets stuck in it. -/
theorem exists_cuts_text (text : List Char) :
    (∃ symbols, Cuts (.start text) symbols (.between text [])) ∨
      ∃ symbols before after, text = before ++ after ∧
        Cuts (.start text) symbols (.between before after) ∧ IsStuck after := by
  obtain ⟨symbols, q, hcuts, hend⟩ := exists_cuts (.start text)
  obtain ⟨n, rfl⟩ := hcuts.reaches
  have hplace : (Position.start text).advance n = .between (text.take n) (text.drop n) :=
    Position.between_advance n [] text
  rw [hplace] at hcuts hend
  rcases hend with hdone | hstuck
  · left
    have hdrop : text.drop n = [] := hdone
    have htake : text.take n = text := by
      simpa [hdrop] using List.take_append_drop n text
    rw [hdrop, htake] at hcuts
    exact ⟨symbols, hcuts⟩
  · right
    exact ⟨symbols, _, _, (List.take_append_drop n text).symm, hcuts, hstuck⟩

end

/-- A grammar text has symbols if cutting it from the left by longest match comes to its end, and
    these are its symbols; they stand one behind the other on their lexemes, with white space and
    nothing else between them.  A text that cutting gets stuck in is refused on the line where it is
    stuck. -/
theorem symbols_by_longest_match (text : List Char) :
    (∀ symbols, Symbol.ofText? text = .ok symbols ↔
      Cuts (.start text) symbols (.between text [])) ∧
    (∀ line, (∃ stray, Symbol.ofText? text = .error stray ∧ stray.line = line) ↔
      ∃ symbols before after, text = before ++ after ∧
        Cuts (.start text) symbols (.between before after) ∧ IsStuck after ∧
        line = 1 + Text.newlines before) ∧
    ∀ symbols, Symbol.ofText? text = .ok symbols →
      (∀ a ∈ symbols, a.start < a.stop ∧ StandsIn text a) ∧
      symbols.Pairwise (fun a b => a.stop ≤ b.start) ∧
      ∀ before c after, text = before ++ c :: after →
        (∃ a ∈ symbols, a.start ≤ Text.byteLength before ∧ Text.byteLength before < a.stop) ∨
          c ∈ gapCharacters := by
  have hends := exists_cuts_text text
  -- a text with symbols is not one that cutting gets stuck in, since that one is refused
  have hok : ∀ symbols, Symbol.ofText? text = .ok symbols →
      Cuts (.start text) symbols (.between text []) := by
    intro symbols h
    rcases hends with ⟨found, hcuts⟩ | ⟨found, before, after, _, hcuts, hstuck⟩
    · rw [hcuts.ofText?_eq_ok] at h
      cases h
      exact hcuts
    · obtain ⟨stray, hstray, _⟩ := hcuts.ofText?_eq_error hstuck
      rw [hstray] at h
      cases h
  refine ⟨fun symbols => ⟨hok symbols, Cuts.ofText?_eq_ok⟩, fun line => ⟨?_, ?_⟩,
    fun symbols h => ?_⟩
  · rintro ⟨stray, hstray, rfl⟩
    rcases hends with ⟨found, hcuts⟩ | ⟨found, before, after, htext, hcuts, hstuck⟩
    · rw [hcuts.ofText?_eq_ok] at hstray
      cases hstray
    · obtain ⟨stray', hstray', hline⟩ := hcuts.ofText?_eq_error hstuck
      rw [hstray] at hstray'
      cases hstray'
      exact ⟨found, before, after, htext, hcuts, hstuck, hline⟩
  · rintro ⟨symbols, before, after, rfl, hcuts, hstuck, rfl⟩
    exact hcuts.ofText?_eq_error hstuck
  · have hcuts := hok symbols h
    have hstands := hcuts.standsIn [] text rfl
    refine ⟨fun a ha => ⟨(hstands a ha).start_lt_stop, hstands a ha⟩, hcuts.ordered.2, ?_⟩
    intro before c after htext
    have hcovers := hcuts.covers rfl htext
    rwa [show (Position.start text).offset = 0 from rfl, Nat.zero_add] at hcovers

/-- A class that begins with an escaped sign is a class to include, and a quote may be escaped. -/
theorem symbols_by_longest_match_escaped :
    ∃ symbols, Symbol.ofText? "(\\!a) -'\\''".toList = .ok symbols ∧
      symbols.map (·.symbol) = [.includeClass "!a", .silentTerminal "'"] ∧
      symbols.Pairwise fun a b => a.stop ≤ b.start := by
  have hread : Symbol.ofText? "(\\!a) -'\\''".toList =
      .ok [⟨.includeClass "!a", 0, 5, 1⟩, ⟨.silentTerminal "'", 6, 11, 1⟩] := rfl
  obtain ⟨_, _, hplaced⟩ := symbols_by_longest_match "(\\!a) -'\\''".toList
  exact ⟨_, hread, rfl, (hplaced _ hread).2.1⟩

end Compositing.Grammar
