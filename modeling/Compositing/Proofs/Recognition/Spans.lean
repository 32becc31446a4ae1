import Compositing.Language
import Compositing.Proofs.Grammar.Linking
import Compositing.Proofs.Language.Registering
import Compositing.Proofs.Recognition.Agreement
import Compositing.Proofs.Recognition.Furthest
import Compositing.Proofs.Recognition.Lines
import Compositing.Proofs.Text.Folding

/-! # Where a match and its tokens stand

    Offsets count bytes and are reached by characters, through white space,
    comments and whatever a leaf takes.  Wherever a match ends, fails or has a
    token, there is a place between two characters of the text, and its line is
    known by the line ends in front of it.  The tokens follow one another
    without overlap, and each can be read off the text that stands there. -/

namespace Compositing

/-! ## Leaves take what there is -/

/-- Spelled words are there. -/
theorem Lexeme.spacedWordsLength?_within {caseSensitive : Bool} {words : List (List Char)}
    {text : List Char} {n : Nat} (h : spacedWordsLength? caseSensitive words text = some n) :
    n ≤ text.length := by
  induction words generalizing text n with
  | nil =>
    cases h
    exact Nat.zero_le _
  | cons word words ih =>
    have hgap : (text.takeWhile Text.isBlank).length ≤ text.length :=
      (List.takeWhile_sublist _).length_le
    rw [spacedWordsLength?] at h
    split at h
    · cases h
    · split at h
      · rename_i rest hafter
        obtain ⟨length, hlength, rfl⟩ := Option.map_eq_some_iff.mp h
        obtain ⟨spelling, htext, hspells⟩ := spells_of_afterWord? hafter
        have hrest := ih hlength
        have hcount := congrArg List.length htext
        rw [List.length_drop, List.length_append, hspells.length_eq] at hcount
        omega
      · cases h

/-- A spelled literal is there. -/
theorem Lexeme.matchLiteral_within {caseSensitive : Bool} {literal text : List Char} {n : Nat}
    (h : matchLiteral caseSensitive literal text = some n) : n ≤ text.length := by
  unfold matchLiteral at h
  split at h
  · split at h
    · cases h
    · obtain ⟨rest, hafter, rfl⟩ := Option.map_eq_some_iff.mp h
      obtain ⟨spelling, rfl, hspells⟩ := spells_of_afterWord? hafter
      rw [List.length_append, hspells.length_eq]
      omega
  · split at h
    · rename_i rest hafter
      obtain ⟨length, hlength, rfl⟩ := Option.map_eq_some_iff.mp h
      obtain ⟨spelling, rfl, hspells⟩ := spells_of_afterWord? hafter
      have hrest := spacedWordsLength?_within hlength
      rw [List.length_append, hspells.length_eq]
      omega
    · cases h

/-- A leaf takes no more than there is. -/
theorem Element.scanner_within {caseSensitive : Bool} {e : Element}
    {scan : List Char → Option (Nat × Option Token.Kind)} {text : List Char} {n : Nat}
    {kind? : Option Token.Kind} (hscanner : e.scanner? caseSensitive = some scan)
    (hscan : scan text = some (n, kind?)) : n ≤ text.length := by
  cases e with
  | terminal literal emits token =>
    cases hscanner
    obtain ⟨_, hmatch, hresult⟩ := Option.map_eq_some_iff.mp hscan
    cases hresult
    exact Lexeme.matchLiteral_within hmatch
  | number name =>
    cases hscanner
    obtain ⟨⟨_, x⟩, hmatch, hresult⟩ := Option.map_eq_some_iff.mp hscan
    cases hresult
    exact Scan.number_within hmatch
  | label name =>
    cases hscanner
    obtain ⟨⟨_, s⟩, hmatch, hresult⟩ := Option.map_eq_some_iff.mp hscan
    cases hresult
    exact Scan.label_within hmatch
  | run chars negated =>
    cases hscanner
    obtain ⟨⟨_, s⟩, hmatch, hresult⟩ := Option.map_eq_some_iff.mp hscan
    cases hresult
    exact Scan.run_within hmatch
  | _ => cases hscanner

/-! ## What a token is read from -/

/-- What is trimmed off the end of a text is white space, and no more of it is left there. -/
theorem Text.exists_trimmed (text : List Char) :
    ∃ blanks, text = trimEnd text ++ blanks ∧ (∀ c ∈ blanks, isBlank c = true) ∧
      ∀ c ∈ (trimEnd text).getLast?, isBlank c = false := by
  refine ⟨(text.reverse.takeWhile isBlank).reverse, ?_, ?_, ?_⟩
  · have hsplit := List.takeWhile_append_dropWhile (p := isBlank) (l := text.reverse)
    rw [trimEnd, ← List.reverse_append, hsplit, List.reverse_reverse]
  · intro c hc
    exact List.all_eq_true.mp List.all_takeWhile c (List.mem_reverse.mp hc)
  · intro c hc
    rw [trimEnd, List.getLast?_reverse] at hc
    have hlast := List.head?_dropWhile_not isBlank text.reverse
    rw [hc] at hlast
    exact hlast

/-- A token of the kind is what is read from the characters `taken`, with `rest` behind them.
    `names` tells which texts an id stands for. -/
inductive Token.Kind.ReadFrom (caseSensitive : Bool) (names : Nat → String → Prop)
    (taken rest : List Char) : Token.Kind → Prop where
  | keyword {id : Nat} {word : String} (hnames : names id word)
    (hmatch : Lexeme.matchLiteral caseSensitive word.toList (taken ++ rest) =
      some taken.length) :
    ReadFrom caseSensitive names taken rest (.keyword id)
  | number {x : Number} (hread : Number.read? Number.double taken = some x) :
    ReadFrom caseSensitive names taken rest (.number x)
  | quoted {s : String} (htaken : taken = '"' :: (s.toList ++ ['"']))
    (hinner : ∀ c ∈ s.toList, Scan.isInner c = true) :
    ReadFrom caseSensitive names taken rest (.label s)
  | bare {s : String} (htaken : taken = s.toList)
    (hbare : ∀ c ∈ s.toList, Scan.isBare c = true) :
    ReadFrom caseSensitive names taken rest (.label s)
  | trimmed {s : String} {blanks : List Char} (htaken : taken = s.toList ++ blanks)
    (hblanks : ∀ c ∈ blanks, Text.isBlank c = true)
    (hlast : ∀ c ∈ s.toList.getLast?, Text.isBlank c = false) :
    ReadFrom caseSensitive names taken rest (.label s)

section
variable {caseSensitive : Bool} {names : Nat → String → Prop}

theorem Scan.label_readFrom {text : List Char} {n : Nat} {s : String}
    (h : label text = some (n, s)) :
    Token.Kind.ReadFrom caseSensitive names (text.take n) (text.drop n) (.label s) := by
  by_cases hquote : text.head? = some '"'
  · obtain ⟨body, rfl⟩ := List.head?_eq_some_iff.mp hquote
    rw [label_quote] at h
    have hinner : ∀ c ∈ body.takeWhile isInner, isInner c = true :=
      List.all_eq_true.mp List.all_takeWhile
    have htake := List.prefix_iff_eq_take.mp (List.takeWhile_prefix isInner (l := body))
    generalize body.takeWhile isInner = value at h hinner htake
    -- the value is what stands between the quotes, if there is a second one
    split at h
    · rename_i hclosed
      cases h
      rw [Bool.and_eq_true, beq_iff_eq] at hclosed
      obtain ⟨rest, hrest⟩ := List.head?_eq_some_iff.mp hclosed.2
      have hbody : body = value ++ '"' :: rest := by
        have hsplit := List.take_append_drop value.length body
        rw [← htake, hrest] at hsplit
        exact hsplit.symm
      refine .quoted ?_ ?_
      · rw [hbody, String.toList_ofList, List.take_succ_cons, List.take_length_add_append]
        rfl
      · rw [String.toList_ofList]
        exact hinner
    · cases h
  · rw [label_of_head hquote] at h
    split at h
    · cases h
    · cases h
      refine .bare ?_ ?_
      · rw [String.toList_ofList]
        exact (List.prefix_iff_eq_take.mp (List.takeWhile_prefix isBare)).symm
      · rw [String.toList_ofList]
        exact List.all_eq_true.mp List.all_takeWhile

theorem Scan.run_readFrom {chars text : List Char} {negated : Bool} {n : Nat} {s : String}
    (h : run chars negated text = some (n, s)) :
    Token.Kind.ReadFrom caseSensitive names (text.take n) (text.drop n) (.label s) := by
  unfold run at h
  simp only at h
  split at h
  · cases h
  · cases h
    obtain ⟨blanks, htaken, hblanks, hlast⟩ :=
      Text.exists_trimmed (text.take (runLength chars negated text))
    refine .trimmed ?_ hblanks ?_
    · rw [String.toList_ofList]
      exact htaken
    · rw [String.toList_ofList]
      exact hlast

theorem Scan.number_readFrom {text : List Char} {n : Nat} {x : Number}
    (h : number text = some (n, x)) :
    Token.Kind.ReadFrom caseSensitive names (text.take n) (text.drop n) (.number x) := by
  unfold number at h
  cases hscan : Number.scan text with
  | none =>
    rw [hscan] at h
    cases h
  | some length =>
    rw [hscan] at h
    obtain ⟨value, hread, hresult⟩ := Option.map_eq_some_iff.mp h
    cases hresult
    exact .number hread

/-- The token of a leaf is read from what the leaf takes, and the id of a keyword stands for the
    text of the literal. -/
theorem Leaf.Accepted.readFrom {leaf : Leaf} (h : leaf.Accepted caseSensitive)
    {kind : Token.Kind} (hkind : leaf.kind? = some kind) :
    kind.ReadFrom caseSensitive (fun id word => leaf.element = .terminal word true (some id))
      (leaf.place.rest.take leaf.length) (leaf.place.rest.drop leaf.length) := by
  obtain ⟨e, place, length, kind?⟩ := leaf
  obtain ⟨scan, hscanner, hscan⟩ := h
  cases hkind
  have hwithin := Element.scanner_within hscanner hscan
  cases e with
  | terminal text emits token =>
    cases hscanner
    obtain ⟨n, hmatch, hresult⟩ := Option.map_eq_some_iff.mp hscan
    obtain ⟨rfl, hkind⟩ := Prod.mk.inj hresult
    cases emits with
    | false => cases hkind
    | true =>
      obtain ⟨id, rfl, rfl⟩ := Option.map_eq_some_iff.mp hkind
      refine .keyword rfl ?_
      rw [List.take_append_drop, List.length_take, Nat.min_eq_left hwithin]
      exact hmatch
  | number name =>
    cases hscanner
    obtain ⟨⟨n, x⟩, hnumber, hresult⟩ := Option.map_eq_some_iff.mp hscan
    cases hresult
    exact Scan.number_readFrom hnumber
  | label name =>
    cases hscanner
    obtain ⟨⟨n, s⟩, hlabel, hresult⟩ := Option.map_eq_some_iff.mp hscan
    cases hresult
    exact Scan.label_readFrom hlabel
  | run chars negated =>
    cases hscanner
    obtain ⟨⟨n, s⟩, hrun, hresult⟩ := Option.map_eq_some_iff.mp hscan
    cases hresult
    exact Scan.run_readFrom hrun
  | _ => cases hscanner

/-- The id stands for a literal that is found wherever the word is, with the same length. -/
def SpelledAs (caseSensitive : Bool) (names : Nat → String → Prop) (id : Nat) (word : String) :
    Prop :=
  ∃ word', names id word' ∧ ∀ text, Lexeme.matchLiteral caseSensitive word'.toList text =
    Lexeme.matchLiteral caseSensitive word.toList text

/-- Ids may stand for other texts that are found at the same places. -/
theorem Token.Kind.ReadFrom.imp {names' : Nat → String → Prop} {taken rest : List Char}
    {kind : Token.Kind} (h : kind.ReadFrom caseSensitive names taken rest)
    (hnames : ∀ id word, names id word → SpelledAs caseSensitive names' id word) :
    kind.ReadFrom caseSensitive names' taken rest := by
  cases h with
  | keyword hname hmatch =>
    obtain ⟨word', hname', hsame⟩ := hnames _ _ hname
    exact .keyword hname' ((hsame _).trans hmatch)
  | number hread => exact .number hread
  | quoted htaken hinner => exact .quoted htaken hinner
  | bare htaken hbare => exact .bare htaken hbare
  | trimmed htaken hblanks hlast => exact .trimmed htaken hblanks hlast

end

/-! ## Places -/

/-- Going from one place to another passes some characters. -/
theorem Position.Reaches.exists_passed {before after : List Char} {line : Nat} {q : Position}
    (h : Position.Reaches ⟨after, Text.byteLength before, line⟩ q) :
    ∃ passed rest, after = passed ++ rest ∧
      q = ⟨rest, Text.byteLength (before ++ passed), line + Text.newlines passed⟩ := by
  obtain ⟨n, rfl⟩ := h
  refine ⟨after.take n, after.drop n, (List.take_append_drop n after).symm, ?_⟩
  rw [Position.advance_eq, Text.byteLength_append]

namespace Leaf.Between
variable {caseSensitive : Bool} {p q : Position} {leaves : List Leaf}

/-- Accepted leaves begin one after the other. -/
theorem ascending (h : Between p q leaves)
    (haccepted : ∀ leaf ∈ leaves, leaf.Accepted caseSensitive) :
    leaves.Pairwise fun a b => a.place.offset < b.place.offset := by
  refine h.pairwise.imp_of_mem ?_
  intro a b ha _ hbehind
  have hlength := (haccepted a ha).offset_lt
  have hbehind := hbehind.offset_le
  omega

/-- So do their tokens. -/
theorem ascending_tokens (h : Between p q leaves)
    (haccepted : ∀ leaf ∈ leaves, leaf.Accepted caseSensitive) :
    (leaves.filterMap token?).Pairwise (·.offset < ·.offset) := by
  refine List.Pairwise.filterMap token? ?_ (h.ascending haccepted)
  intro a b hless t ht u hu
  obtain ⟨kind, _, rfl⟩ := Option.map_eq_some_iff.mp ht
  obtain ⟨kind', _, rfl⟩ := Option.map_eq_some_iff.mp hu
  exact hless

end Leaf.Between

/-! ## Exact outcomes -/

/-- A token stands behind `before`, where `after` is ahead and `line` is the line: it begins
    between two characters, is read from those it takes, and ends at `stop` or before. -/
def Token.Stands (caseSensitive : Bool) (names : Nat → String → Prop) (before after : List Char)
    (line stop : Nat) (t : Token) : Prop :=
  ∃ passed taken rest, after = passed ++ (taken ++ rest) ∧
    t.offset = Text.byteLength (before ++ passed) ∧ t.line = line + Text.newlines passed ∧
    t.offset < Text.byteLength (before ++ passed ++ taken) ∧
    Text.byteLength (before ++ passed ++ taken) ≤ stop ∧
    t.kind.ReadFrom caseSensitive names taken rest

/-- A match that began behind `before`, where `after` is ahead and `line` is the line, tells
    exactly where it ends, where it failed furthest and where its tokens stand. -/
structure Recognition.Exact (caseSensitive : Bool) (names : Nat → String → Prop)
    (before after : List Char) (line : Nat) (r : Recognition) : Prop where
  start_le : Text.byteLength before ≤ r.position.offset
  le_length : r.position.offset ≤ Text.byteLength (before ++ after)
  position : ∃ passed rest, after = passed ++ rest ∧
    r.position = ⟨rest, Text.byteLength (before ++ passed), line + Text.newlines passed⟩
  furthest : ∃ passed rest, after = passed ++ rest ∧
    r.furthest = Text.byteLength (before ++ passed)
  tokens : ∀ t ∈ r.tokens, t.Stands caseSensitive names before after line r.position.offset
  ascending : r.tokens.Pairwise (·.offset < ·.offset)
  tokens_nil : r.position.offset = Text.byteLength before → r.tokens = []

section
variable {g : Grammar} {caseSensitive : Bool} {names : Nat → String → Prop}
  {before after : List Char} {line : Nat}

/-- Where the token of a leaf stands. -/
theorem Leaf.stands {q : Position} {leaves : List Leaf} {leaf : Leaf} {t : Token}
    (hbetween : Leaf.Between ⟨after, Text.byteLength before, line⟩ q leaves)
    (hleaf : leaf ∈ leaves) (haccepted : leaf.Accepted caseSensitive)
    (ht : leaf.token? = some t) :
    t.Stands caseSensitive (fun id word => leaf.element = .terminal word true (some id)) before
      after line q.offset := by
  obtain ⟨kind, hkind, rfl⟩ := Option.map_eq_some_iff.mp ht
  obtain ⟨hplace, hfinish⟩ := hbetween.of_mem hleaf
  obtain ⟨passed, ahead, hafter, hat⟩ := hplace.exists_passed
  have hread := haccepted.readFrom hkind
  have hlonger := haccepted.offset_lt
  have hend := hfinish.offset_le
  -- what is ahead of the leaf is split at its length
  rw [Leaf.finish, Position.advance_offset] at hlonger hend
  rw [hat] at hread hlonger hend
  refine ⟨passed, ahead.take leaf.length, ahead.drop leaf.length, ?_, ?_, ?_, ?_, ?_, hread⟩
  · rw [List.take_append_drop]
    exact hafter
  · rw [hat]
  · rw [hat]
  · rw [hat, Text.byteLength_append _ (ahead.take leaf.length)]
    exact hlonger
  · rw [Text.byteLength_append _ (ahead.take leaf.length)]
    exact hend

theorem Token.Stands.imp {names' : Nat → String → Prop} {stop : Nat} {t : Token}
    (h : t.Stands caseSensitive names before after line stop)
    (hnames : ∀ id word, names id word → SpelledAs caseSensitive names' id word) :
    t.Stands caseSensitive names' before after line stop := by
  obtain ⟨passed, taken, rest, hafter, hoffset, hline, hlonger, hend, hread⟩ := h
  exact ⟨passed, taken, rest, hafter, hoffset, hline, hlonger, hend, hread.imp hnames⟩

/-- The outcome of a match is exact, if each id stands for the literals that it is given to. -/
theorem Recognition.exact_of_peg {r : Recognition} {e : Element} {q : Position}
    {tokens : List Token}
    (hpeg : Peg g caseSensitive 0 (.element e) ⟨after, Text.byteLength before, line⟩
      (some (q, tokens)))
    (hreports : Reports r ⟨after, Text.byteLength before, line⟩ (some (q, tokens)))
    (hfurthest : Position.ReachesOffset ⟨after, Text.byteLength before, line⟩ r.furthest)
    (hnames : ∀ id word, Uses g (.element e) (.terminal word true (some id)) →
      SpelledAs caseSensitive names id word) :
    r.Exact caseSensitive names before after line := by
  have hposition : r.position = q := hreports.position
  have htokens : r.tokens = tokens := hreports.tokens
  obtain ⟨leaves, hcourse, rfl⟩ := hpeg.exists_course
  have hbetween := hcourse.between
  have haccepted := hcourse.accepted
  have hstands : ∀ t ∈ r.tokens,
      t.Stands caseSensitive names before after line r.position.offset := by
    intro t ht
    rw [htokens] at ht
    obtain ⟨leaf, hleaf, htoken⟩ := List.mem_filterMap.mp ht
    rw [hposition]
    apply (Leaf.stands hbetween hleaf (haccepted leaf hleaf) htoken).imp
    intro id word hword
    -- a leaf of the course is an element of the grammar
    have huses := hcourse.uses leaf hleaf
    rw [hword] at huses
    exact hnames id word huses
  obtain ⟨passed, rest, hafter, hat⟩ := hpeg.reaches.exists_passed
  refine ⟨?_, ?_, ⟨passed, rest, hafter, hposition.trans hat⟩, ?_, hstands, ?_, ?_⟩
  · rw [hposition, hat, Text.byteLength_append]
    exact Nat.le_add_right _ _
  · rw [hposition, hat, hafter, ← List.append_assoc, Text.byteLength_append (before ++ passed)]
    exact Nat.le_add_right _ _
  · obtain ⟨place, hplace, hoffset⟩ := hfurthest
    obtain ⟨passed, rest, hafter, rfl⟩ := hplace.exists_passed
    exact ⟨passed, rest, hafter, hoffset⟩
  · rw [htokens]
    exact hbetween.ascending_tokens haccepted
  · intro hstays
    rw [List.eq_nil_iff_forall_not_mem]
    intro t ht
    -- a token would begin at or behind the start and end where the match ends, at the start
    obtain ⟨passed, taken, _, _, hoffset, _, hlonger, hend, _⟩ := hstands t ht
    rw [Text.byteLength_append] at hoffset
    omega

/-- So is the outcome of an attempt that means an element. -/
theorem Recognition.exact_of_means {e : Element} {attempt : Progress → Attempt}
    (hmeans : ∀ p, (attempt p).Means g caseSensitive 0 (.element e) true p)
    (hwithin : StaysWithin ⟨after, Text.byteLength before, line⟩ attempt)
    (hmatched : (ofAttempt attempt ⟨after, Text.byteLength before, line⟩
      (Text.byteLength before)).matched = true)
    (hnames : ∀ id word, Uses g (.element e) (.terminal word true (some id)) →
      SpelledAs caseSensitive names id word) :
    (ofAttempt attempt ⟨after, Text.byteLength before, line⟩ (Text.byteLength before)).Exact
      caseSensitive names before after line := by
  obtain ⟨outcome, hpeg, hreports⟩ := exists_reports
    (hmeans ⟨⟨after, Text.byteLength before, line⟩, [], Text.byteLength before⟩)
  rw [hreports.matched] at hmatched
  obtain ⟨⟨q, tokens⟩, rfl⟩ := Option.isSome_iff_exists.mp hmatched
  exact exact_of_peg hpeg hreports (reachesOffset_ofAttempt hwithin) hnames

end

/-! ## Elements and rules of a language -/

namespace Language
variable {α : Type} {lexicon : Lexicon α}

/-- A literal with the id of its keyword is found where the text of the keyword is. -/
theorem spelledAs_of_lookup (hlexicon : lexicon.IsConsistent) {word : String} {id : Nat}
    (h : ∃ entry, lexicon.lookup word = some entry ∧ entry.id = id) :
    SpelledAs lexicon.caseSensitive (fun id word => lexicon.text? id = some word) id word := by
  obtain ⟨entry, hlookup, rfl⟩ := h
  obtain ⟨hentry, hkey⟩ := Lexicon.of_lookup hlookup
  have htext : lexicon.text? entry.id = some entry.text := by
    rw [Lexicon.text?, hlexicon.lookupId_of_mem hentry]
    rfl
  refine ⟨entry.text, htext, fun text => ?_⟩
  exact (Lexicon.matchLiteral_of_key hkey.symm (hlexicon.spelled entry hentry) text).symm

/-- Matching is exact.  Where an element or a rule of a language of registered keywords matches
    from a character boundary on, the match ends at one, and so do its furthest failure and each
    of its tokens; the lines are those of the text passed.  The tokens follow one another inside
    of what was matched, and each is read from what stands there: the literal of a keyword, and
    where its id is that of the literal in the lexicon, as in the rules of the language, its text
    in the lexicon. -/
theorem recognize_exact (hlexicon : lexicon.Registered) {name bnf start : String}
    {l : Language α} (hcompile : Language.compile name bnf start lexicon = .ok l)
    (before after : List Char) :
    (∀ e line,
      let r := l.grammar.recognizeAt lexicon.caseSensitive e (before ++ after)
        (Text.byteLength before) line
      r.matched = true →
        r.Exact lexicon.caseSensitive
          (fun id word => Uses l.grammar (.element e) (.terminal word true (some id)))
          before after line ∧
        ((∀ word id, Uses l.grammar (.element e) (.terminal word true (some id)) →
            ∃ entry, lexicon.lookup word = some entry ∧ entry.id = id) →
          r.Exact lexicon.caseSensitive (fun id word => lexicon.text? id = some word)
            before after line)) ∧
    (∀ id,
      let r := l.grammar.recognizeRuleAt lexicon.caseSensitive id (before ++ after)
        (Text.byteLength before)
      r.matched = true →
        r.Exact lexicon.caseSensitive (fun id word => lexicon.text? id = some word)
          before after (1 + Text.newlines before)) := by
  have hconsistent := hlexicon.isConsistent
  obtain ⟨g, hlinked, rfl⟩ := Grammar.ok_of_map hcompile
  have hg : g.link lexicon = .ok g := Grammar.linked_of_compileLinked hlinked
  have hcall : Recognition.CallMeans g lexicon.caseSensitive 0
      (Recognition.rule g lexicon.caseSensitive Recognition.maxRuleDepth) :=
    Recognition.rule_means _ 0 rfl
  constructor
  · intro e line
    unfold Grammar.recognizeAt Grammar.recognize
    rw [Position.seek_append]
    intro r hmatched
    have hmeans := Recognition.element_means hcall e true
    have hwithin : Recognition.StaysWithin ⟨after, Text.byteLength before, line⟩
        (Recognition.element lexicon.caseSensitive
          (Recognition.rule g lexicon.caseSensitive Recognition.maxRuleDepth) true e) :=
      Recognition.element_staysWithin (Recognition.rule_staysWithin g _) e true
    refine ⟨Recognition.exact_of_means hmeans hwithin hmatched ?_, fun hkeywords =>
      Recognition.exact_of_means hmeans hwithin hmatched ?_⟩
    · exact fun id word huses => ⟨word, huses, fun _ => rfl⟩
    · exact fun id word huses => spelledAs_of_lookup hconsistent (hkeywords word id huses)
  · intro id
    unfold Grammar.recognizeRuleAt
    rw [Position.start_advanceBytes]
    intro r hmatched
    have hwithin : Recognition.StaysWithin
        ⟨after, Text.byteLength before, 1 + Text.newlines before⟩
        (Recognition.rule g lexicon.caseSensitive Recognition.maxRuleDepth true id) :=
      Recognition.rule_staysWithin g _ true id
    refine Recognition.exact_of_means (hcall true "" id) hwithin hmatched ?_
    intro id' word huses
    -- the literals of the rules are linked
    obtain ⟨entry, hlookup, hid⟩ := (huses.isLinked hg rfl).token_of_terminal
    exact spelledAs_of_lookup hconsistent ⟨entry, hlookup, (Option.some.inj hid).symm⟩

/-- A keyword in capitals, and a rule with it and a name, behind a letter of two bytes. -/
theorem recognize_exact_pass :
    let lexicon : Lexicon Unit := ⟨false, [⟨"pass", 7, some (), false⟩]⟩
    let names := fun id word => lexicon.text? id = some word
    let before := "é\n".toList
    let after := "PASS \"Bloom\"".toList
    ∃ l, Language.compile "passes" "<Pass> ::= 'pass' <@name>" "Pass" lexicon = .ok l ∧
      (l.grammar.recognizeAt false (.terminal "Pass" true (some 7)) (before ++ after)
        (Text.byteLength before) 5).Exact false names before after 5 ∧
      (l.grammar.recognizeRuleAt false 0 (before ++ after) (Text.byteLength before)).Exact false
        names before after 2 := by
  intro lexicon names before after
  have hpass : (Lexicon.empty false).register "pass" 7 (some ()) = .ok lexicon := by rfl
  have hregistered : lexicon.Registered := .register (.empty false) hpass
  have hmatches :
      (Language.compile "passes" "<Pass> ::= 'pass' <@name>" "Pass" lexicon).toOption.map
        (fun l => ((l.grammar.recognizeAt false (.terminal "Pass" true (some 7)) (before ++ after)
            (Text.byteLength before) 5).matched,
          (l.grammar.recognizeRuleAt false 0 (before ++ after)
            (Text.byteLength before)).matched)) = some (true, true) := by
    decide +kernel
  cases hcompile : Language.compile "passes" "<Pass> ::= 'pass' <@name>" "Pass" lexicon with
  | error error =>
    rw [hcompile] at hmatches
    cases hmatches
  | ok l =>
    rw [hcompile] at hmatches
    obtain ⟨helement, hrule⟩ := Prod.mk.inj (Option.some.inj hmatches)
    obtain ⟨hexact, hexactrule⟩ := recognize_exact hregistered hcompile before after
    refine ⟨l, rfl, (hexact _ 5 helement).2 ?_, hexactrule 0 hrule⟩
    rintro word id ⟨⟩
    exact ⟨⟨"pass", 7, some (), false⟩, by rfl, rfl⟩

end Language
end Compositing
