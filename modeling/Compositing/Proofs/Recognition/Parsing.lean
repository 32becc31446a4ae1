import Compositing.Proofs.Recognition.Peg
import Compositing.Proofs.Recognition.Writing

/-! # Parsing what is written

    What a phrase does with a text can be said by the pieces the text is
    written of, whatever their spelling and the gaps: it fails, or it takes some
    pieces and leaves the others.  The lemmas follow the forms of phrases.

    `room` is how many rules may still be entered. -/

namespace Compositing

/-- The phrase fails on every text that is written of the pieces. -/
def Fails (g : Grammar) (caseSensitive : Bool) (room : Nat) (phrase : Phrase)
    (pieces : List Piece) : Prop :=
  ∀ active, active + room = Recognition.maxRuleDepth →
    ∀ p : Position, Writes caseSensitive pieces p.rest → Peg g caseSensitive active phrase p none

/-- On every text that is written of the pieces, the phrase leaves a text that is written of
    `left` and yields tokens of the kinds.  If pieces are taken, so are characters. -/
def Reads (g : Grammar) (caseSensitive : Bool) (room : Nat) (phrase : Phrase)
    (pieces left : List Piece) (kinds : List Token.Kind) : Prop :=
  ∀ active, active + room = Recognition.maxRuleDepth →
    ∀ p : Position, Writes caseSensitive pieces p.rest →
      ∃ q tokens, Peg g caseSensitive active phrase p (some (q, tokens)) ∧
        Writes caseSensitive left q.rest ∧ tokens.map (·.kind) = kinds ∧
        (left.length < pieces.length → q.rest.length < p.rest.length)

/-! ## Skipping to a piece -/

theorem Writes.skipTrivia {caseSensitive : Bool} {piece : Piece} {pieces : List Piece}
    {p : Position} (h : Writes caseSensitive (piece :: pieces) p.rest) :
    ∃ spelling after, p.skipTrivia.rest = spelling ++ after ∧
      piece.Spelled caseSensitive spelling after ∧ Writes caseSensitive pieces after := by
  generalize htext : p.rest = text at h
  cases h with
  | piece hgap hspelled hrest =>
    exact ⟨_, _, Position.skipTrivia_rest htext hgap hspelled.isPlain, hspelled, hrest⟩

theorem Position.Reaches.length_le {p q : Position} (h : p.Reaches q) :
    q.rest.length ≤ p.rest.length := by
  obtain ⟨n, rfl⟩ := h
  rw [Position.advance_rest, List.length_drop]
  omega

variable {g : Grammar} {caseSensitive : Bool} {room : Nat}

/-! ## Leaves -/

section
variable {e : Element} {scan : List Char → Option (Nat × Option Token.Kind)}
  {piece : Piece} {pieces left : List Piece} {kinds : List Token.Kind}

/-- A leaf fails where its scanner refuses every spelling of the first piece. -/
theorem fails_leaf (hscanner : e.scanner? caseSensitive = some scan)
    (h : ∀ spelling after, piece.Spelled caseSensitive spelling after →
      scan (spelling ++ after) = none) :
    Fails g caseSensitive room (.element e) (piece :: pieces) := by
  intro active _ p hp
  obtain ⟨spelling, after, hrest, hspelled, _⟩ := hp.skipTrivia
  exact .leafFails hscanner (by rw [hrest, h spelling after hspelled])

/-- A leaf reads what its scanner takes of every spelling of the first piece. -/
theorem reads_leaf (hscanner : e.scanner? caseSensitive = some scan)
    (h : ∀ spelling after, piece.Spelled caseSensitive spelling after →
      Writes caseSensitive pieces after →
      ∃ n kind?, scan (spelling ++ after) = some (n, kind?) ∧ 0 < n ∧ kind?.toList = kinds ∧
        Writes caseSensitive left ((spelling ++ after).drop n)) :
    Reads g caseSensitive room (.element e) (piece :: pieces) left kinds := by
  intro active _ p hp
  obtain ⟨spelling, after, hrest, hspelled, hafter⟩ := hp.skipTrivia
  obtain ⟨n, kind?, hscan, hpos, hkinds, hleft⟩ := h spelling after hspelled hafter
  refine ⟨_, _, .leaf hscanner (by rw [hrest, hscan]), ?_, ?_, fun _ => ?_⟩
  · rwa [Position.advance_rest, hrest]
  · rw [Position.leafTokens, List.map_map, ← hkinds]
    exact List.map_id _
  · have hle := (Position.reaches_skipTrivia p).length_le
    have hspelling := List.length_pos_iff.mpr hspelled.ne_nil
    rw [Position.advance_rest, List.length_drop]
    rw [hrest, List.length_append] at hle ⊢
    omega

end

/-! ## Literals -/

section
variable {text : String} {emits : Bool} {token : Option Nat} {pieces : List Piece}

/-- The kinds of the tokens that a literal yields. -/
def literalKinds (emits : Bool) (token : Option Nat) : List Token.Kind :=
  if emits then (token.map Token.Kind.keyword).toList else []

/-- A literal of keywords and marks. -/
def Text.isLiteral (text : List Char) : Bool :=
  !text.isEmpty && text.all fun c => isWordChar c || isMark c

theorem Text.isBlank_of_isMark {c : Char} (h : isMark c = true) : isBlank c = false := by
  rcases Text.eq_or_of_isMark h with rfl | rfl | rfl
  · rfl
  · rfl
  · rfl

/-- Matching a literal of keywords and marks. -/
theorem matchLiteral_of_isLiteral {literal : List Char} (h : Text.isLiteral literal = true)
    (rest : List Char) :
    Lexeme.matchLiteral caseSensitive literal rest =
      (Lexeme.afterWord? caseSensitive literal rest).map fun _ => literal.length := by
  simp only [Text.isLiteral, Bool.and_eq_true, List.all_eq_true, Bool.or_eq_true] at h
  apply Lexeme.matchLiteral_eq
  · rintro rfl
    cases h.1
  · intro c hc
    rcases h.2 c hc with hword | hmark
    · exact Text.isBlank_of_isWordChar hword
    · exact Text.isBlank_of_isMark hmark

theorem scanner?_terminal :
    (Element.terminal text emits token).scanner? caseSensitive =
      some fun rest => (Lexeme.matchLiteral caseSensitive text.toList rest).map
        (·, if emits then token.map .keyword else none) := rfl

/-! ### Literals that are not there -/

/-- A letter that is the same as one that is none is that character. -/
theorem Text.eq_of_toLower_eq {a b : Char} (h : a.toLower = b.toLower)
    (hb : b.isAlpha = false) : a = b := by
  have hrange : ¬ (65 ≤ b.toNat ∧ b.toNat ≤ 90) ∧ ¬ (97 ≤ b.toNat ∧ b.toNat ≤ 122) := by
    rwa [← Bool.not_eq_true, Text.isAlpha_iff, not_or] at hb
  have hnat := congrArg Char.toNat h
  rw [Text.toNat_toLower, Text.toNat_toLower, if_neg hrange.1] at hnat
  apply Char.toNat_inj.mp
  split at hnat
  · omega
  · exact hnat

/-- No spelling of the piece begins with the literal: a word clashes with it, anything else
    begins with another character. -/
def Piece.refuses (literal : List Char) : Piece → Bool
  | .word letters => Lexeme.clashes literal letters
  | .mark c => literal.head?.any (· != c)
  | .number _ => literal.head?.any fun l => !(Number.isSign l || l.isDigit || l == '.')
  | .label _ => false
  | .name _ => literal.head?.any Scan.nameEnds.contains

/-- A literal is not found in front of another first character. -/
theorem afterWord?_of_head {literal : List Char} {l c : Char} (hl : literal.head? = some l)
    (hne : l.toLower ≠ c.toLower) (rest : List Char) :
    Lexeme.afterWord? caseSensitive literal (c :: rest) = none := by
  cases literal with
  | nil => cases hl
  | cons l' literal =>
    obtain rfl := Option.some.inj hl
    rw [Lexeme.afterWord?, if_neg]
    intro hletter
    exact hne (Text.toLower_of_sameLetter hletter)

theorem not_alpha_of_isMark {c : Char} (h : Text.isMark c = true) : c.isAlpha = false := by
  rcases Text.eq_or_of_isMark h with rfl | rfl | rfl
  · rfl
  · rfl
  · rfl

theorem not_alpha_of_numeral {c : Char}
    (h : (Number.isSign c || c.isDigit || c == '.') = true) : c.isAlpha = false := by
  rcases Numeral.eq_or_of_head h with rfl | rfl | hdigit | rfl
  · rfl
  · rfl
  · rw [Text.isDigit_iff] at hdigit
    rw [← Bool.not_eq_true, Text.isAlpha_iff]
    omega
  · rfl

theorem not_alpha_of_nameEnds {c : Char} (h : c ∈ Scan.nameEnds) : c.isAlpha = false := by
  have hall : Scan.nameEnds.all (fun c => !c.isAlpha) = true := by decide
  have hnone : ∀ c ∈ Scan.nameEnds, c.isAlpha = false := by simpa using hall
  exact hnone c h

/-- A literal that a piece refuses is not found in front of its spelling. -/
theorem afterWord?_of_refuses {literal : List Char} {piece : Piece} {spelling after : List Char}
    (hspelled : piece.Spelled caseSensitive spelling after)
    (hrefuses : piece.refuses literal = true) :
    Lexeme.afterWord? caseSensitive literal (spelling ++ after) = none := by
  -- but for a word, it is the first characters that differ, even up to the case of letters,
  -- since one of the two is no letter
  cases hspelled with
  | word _ hspells hafter => exact Lexeme.afterWord?_of_clashes hspells hafter hrefuses
  | mark hmark =>
    rename_i c
    obtain ⟨l, hl, hne⟩ := (Option.any_eq_true _ _).mp hrefuses
    refine afterWord?_of_head hl (fun h => ?_) after
    exact bne_iff_ne.mp hne (Text.eq_of_toLower_eq h (not_alpha_of_isMark hmark))
  | number _ =>
    rename_i n _
    obtain ⟨l, hl, hne⟩ := (Option.any_eq_true _ _).mp hrefuses
    obtain ⟨c, rest, htext, hc⟩ := n.head_text
    rw [htext]
    refine afterWord?_of_head hl (fun h => ?_) _
    rw [Text.eq_of_toLower_eq h (not_alpha_of_numeral hc), hc] at hne
    cases hne
  | bareLabel _ _ => cases hrefuses
  | quotedLabel _ => cases hrefuses
  | name hname _ =>
    obtain ⟨l, hl, hends⟩ := (Option.any_eq_true _ _).mp hrefuses
    obtain ⟨c, rest, htext⟩ := List.exists_cons_of_ne_nil hname.nonempty
    have hc := hname.inside c (by simp [htext])
    have hends : l ∈ Scan.nameEnds := by simpa using hends
    rw [htext]
    refine afterWord?_of_head hl (fun h => ?_) _
    rw [Text.eq_of_toLower_eq h.symm (not_alpha_of_nameEnds hends)] at hc
    exact hc hends

/-- A literal that the first piece refuses fails. -/
theorem fails_terminal {piece : Piece} (hliteral : Text.isLiteral text.toList = true)
    (hrefuses : piece.refuses text.toList = true) :
    Fails g caseSensitive room (.element (.terminal text emits token)) (piece :: pieces) := by
  refine fails_leaf scanner?_terminal fun spelling after hspelled => ?_
  rw [matchLiteral_of_isLiteral hliteral, afterWord?_of_refuses hspelled hrefuses]
  rfl

/-! ### Literals that are there -/

/-- A literal at the front of a longer word leaves the rest of the word. -/
theorem reads_front {more : List Char} (hliteral : Text.isLiteral text.toList = true)
    (hmore : more ≠ []) :
    Reads g caseSensitive room (.element (.terminal text emits token))
      (.word (text.toList ++ more) :: pieces) (.word more :: pieces)
      (literalKinds emits token) := by
  refine reads_leaf scanner?_terminal fun spelling after hspelled hafter => ?_
  cases hspelled with
  | word hword hspells hends =>
    obtain ⟨first, second, rfl, hfirst, hsecond⟩ := hspells.of_append
    refine ⟨text.toList.length, if emits then token.map .keyword else none, ?_, ?_, ?_, ?_⟩
    · rw [matchLiteral_of_isLiteral hliteral, List.append_assoc, Lexeme.afterWord?_append hfirst]
      rfl
    · have hne : text.toList ≠ [] := by
        intro hnil
        rw [hnil] at hliteral
        cases hliteral
      exact List.length_pos_iff.mpr hne
    · cases emits with
      | false => rfl
      | true => rfl
    · have hwordMore : Text.isWord more = true := by
        simp only [Text.isWord, List.all_append, Bool.and_eq_true] at hword ⊢
        exact ⟨by simpa using hmore, hword.2.2⟩
      have hleft : Writes caseSensitive (.word more :: pieces) ([] ++ (second ++ after)) :=
        .piece .nil (.word hwordMore hsecond hends) hafter
      rw [List.append_assoc, ← hfirst.length_eq, List.drop_left]
      exact hleft

/-- A literal that is the whole word. -/
theorem reads_word (hliteral : Text.isLiteral text.toList = true) :
    Reads g caseSensitive room (.element (.terminal text emits token))
      (.word text.toList :: pieces) pieces (literalKinds emits token) := by
  refine reads_leaf scanner?_terminal fun spelling after hspelled hafter => ?_
  cases hspelled with
  | word _ hspells _ =>
    refine ⟨text.toList.length, if emits then token.map .keyword else none, ?_, ?_, ?_, ?_⟩
    · rw [matchLiteral_of_isLiteral hliteral, Lexeme.afterWord?_append hspells]
      rfl
    · have hne : text.toList ≠ [] := by
        intro hnil
        rw [hnil] at hliteral
        cases hliteral
      exact List.length_pos_iff.mpr hne
    · cases emits with
      | false => rfl
      | true => rfl
    · rwa [← hspells.length_eq, List.drop_left]

/-- A literal that is a mark. -/
theorem reads_mark {c : Char} (htext : text.toList = [c]) :
    Reads g caseSensitive room (.element (.terminal text emits token)) (.mark c :: pieces) pieces
      (literalKinds emits token) := by
  refine reads_leaf scanner?_terminal fun spelling after hspelled hafter => ?_
  cases hspelled with
  | mark hmark =>
    have hliteral : Text.isLiteral text.toList = true := by
      simp [htext, Text.isLiteral, hmark]
    refine ⟨1, if emits then token.map .keyword else none, ?_, by omega, ?_, ?_⟩
    · rw [matchLiteral_of_isLiteral hliteral, htext,
        Lexeme.afterWord?_append (Text.Spells.refl caseSensitive [c])]
      rfl
    · cases emits with
      | false => rfl
      | true => rfl
    · exact hafter

end

/-! ## Numbers, labels and names -/

section
variable {pieces : List Piece}

theorem reads_number {name : String} {n : Numeral} :
    Reads g caseSensitive room (.element (.number name)) (.number n :: pieces) pieces
      [.number n.value] := by
  refine reads_leaf rfl fun spelling after hspelled hafter => ?_
  cases hspelled with
  | number hends =>
    refine ⟨n.text.length, some (.number n.value), ?_, ?_, rfl, ?_⟩
    · rw [n.number_append hends]
      rfl
    · exact List.length_pos_iff.mpr n.text_ne_nil
    · rwa [List.drop_left]

theorem reads_label {name s : String} :
    Reads g caseSensitive room (.element (.label name)) (.label s :: pieces) pieces
      [.label s] := by
  refine reads_leaf rfl fun spelling after hspelled hafter => ?_
  cases hspelled with
  | bareLabel hlabel hends =>
    refine ⟨s.toList.length, some (.label s), ?_, ?_, rfl, ?_⟩
    · rw [Scan.label_bare hlabel hends]
      rfl
    · exact List.length_pos_iff.mpr hlabel.nonempty
    · rwa [List.drop_left]
  | quotedLabel hlabel =>
    refine ⟨s.toList.length + 2, some (.label s), ?_, by omega, rfl, ?_⟩
    · rw [List.cons_append, List.append_assoc]
      exact congrArg _ (Scan.label_quoted hlabel after)
    · have hlength : s.toList.length + 2 = ('"' :: (s.toList ++ ['"'])).length := by simp
      rwa [hlength, List.drop_left]

/-- A run that stops where names end takes a name in front of such a mark. -/
theorem reads_name {chars s : String} {stop : Char} (hchars : chars.toList = Scan.nameEnds)
    (hstop : stop ∈ Scan.nameEnds) :
    Reads g caseSensitive room (.element (.run chars true)) (.name s :: .mark stop :: pieces)
      (.mark stop :: pieces) [.label s] := by
  refine reads_leaf rfl fun spelling after hspelled hafter => ?_
  cases hspelled with
  | name hname hslash =>
    cases hafter with
    | piece hgap hmark hrest =>
      cases hmark with
      | mark hmark =>
        rw [List.singleton_append] at hslash ⊢
        obtain ⟨n, gap, hrun, hpos, hdrop, hgap'⟩ := Scan.run_name hname hgap hstop hslash
        refine ⟨n, some (.label s), ?_, hpos, rfl, ?_⟩
        · rw [hchars]
          exact congrArg _ hrun
        · rw [hdrop]
          exact .piece hgap' (.mark hmark) hrest

end

/-! ## Sequences and alternatives -/

section
variable {pieces left : List Piece} {kinds more : List Token.Kind}

theorem reads_nil : Reads g caseSensitive room (.sequence []) pieces pieces [] := by
  intro active _ p hp
  exact ⟨p, [], .nil, hp, rfl, fun hless => absurd hless (Nat.lt_irrefl _)⟩

/-- Parts of a sequence read one after the other. -/
theorem reads_cons {first : Element} {rest : List Element} {between : List Piece}
    (hfirst : Reads g caseSensitive room (.element first) pieces between kinds)
    (hrest : Reads g caseSensitive room (.sequence rest) between left more) :
    Reads g caseSensitive room (.sequence (first :: rest)) pieces left (kinds ++ more) := by
  intro active hactive p hp
  obtain ⟨q, tokens, hpeg, hq, rfl, hless⟩ := hfirst active hactive p hp
  obtain ⟨r, tokens', hpeg', hr, rfl, hless'⟩ := hrest active hactive q hq
  refine ⟨r, tokens ++ tokens', .cons hpeg hpeg', hr, List.map_append, fun hleft => ?_⟩
  have hle := hpeg.reaches.length_le
  have hle' := hpeg'.reaches.length_le
  -- one of the parts takes pieces
  by_cases hbetween : between.length < pieces.length
  · have := hless hbetween
    omega
  · have := hless' (by omega)
    omega

/-- A part that yields one token. -/
theorem reads_cons_kind {first : Element} {rest : List Element} {between : List Piece}
    {kind : Token.Kind}
    (hfirst : Reads g caseSensitive room (.element first) pieces between [kind])
    (hrest : Reads g caseSensitive room (.sequence rest) between left more) :
    Reads g caseSensitive room (.sequence (first :: rest)) pieces left (kind :: more) :=
  reads_cons hfirst hrest

/-- A part that yields no token. -/
theorem reads_cons_silent {first : Element} {rest : List Element} {between : List Piece}
    (hfirst : Reads g caseSensitive room (.element first) pieces between [])
    (hrest : Reads g caseSensitive room (.sequence rest) between left more) :
    Reads g caseSensitive room (.sequence (first :: rest)) pieces left more :=
  reads_cons hfirst hrest

theorem fails_cons {first : Element} {rest : List Element}
    (hfirst : Fails g caseSensitive room (.element first) pieces) :
    Fails g caseSensitive room (.sequence (first :: rest)) pieces :=
  fun active hactive p hp => .consFails (hfirst active hactive p hp)

theorem fails_cons_later {first : Element} {rest : List Element} {between : List Piece}
    (hfirst : Reads g caseSensitive room (.element first) pieces between kinds)
    (hrest : Fails g caseSensitive room (.sequence rest) between) :
    Fails g caseSensitive room (.sequence (first :: rest)) pieces := by
  intro active hactive p hp
  obtain ⟨q, tokens, hpeg, hq, _, _⟩ := hfirst active hactive p hp
  exact .consFailsLater hpeg (hrest active hactive q hq)

/-- Alternatives fail if each of them does. -/
theorem fails_alternatives {sequences : List (List Element)}
    (h : ∀ elements ∈ sequences, Fails g caseSensitive room (.sequence elements) pieces) :
    Fails g caseSensitive room (.alternatives sequences) pieces := by
  induction sequences with
  | nil => exact fun active _ p _ => .noAlternative
  | cons elements sequences ih =>
    rw [List.forall_mem_cons] at h
    exact fun active hactive p hp =>
      .firstFails (h.1 active hactive p hp) (ih h.2 active hactive p hp)

/-- An alternative is read if those before it fail. -/
theorem reads_alternatives (before : List (List Element)) {after : List (List Element)}
    {elements : List Element}
    (hbefore : ∀ elements ∈ before, Fails g caseSensitive room (.sequence elements) pieces)
    (h : Reads g caseSensitive room (.sequence elements) pieces left kinds) :
    Reads g caseSensitive room (.alternatives (before ++ elements :: after)) pieces left kinds := by
  intro active hactive p hp
  obtain ⟨q, tokens, hpeg, hq⟩ := h active hactive p hp
  refine ⟨q, tokens, ?_, hq⟩
  induction before with
  | nil => exact .firstMatches hpeg
  | cons first before ih =>
    rw [List.forall_mem_cons] at hbefore
    exact .firstFails (hbefore.1 active hactive p hp) (ih hbefore.2)

/-! ## Rules, lookaheads and repetitions -/

/-- A rule reads what its alternatives read with one rule less. -/
theorem reads_rule {name : String} {id : Nat} {r : Rule} (hrule : g.rule? id = some r)
    (h : Reads g caseSensitive room (.alternatives r.alternatives) pieces left kinds) :
    Reads g caseSensitive (room + 1) (.element (.rule name id)) pieces left kinds := by
  intro active hactive p hp
  obtain ⟨q, tokens, hpeg, hq⟩ := h (active + 1) (by omega) p hp
  exact ⟨q, tokens, .rule (by omega) hrule hpeg, hq⟩

theorem fails_rule {name : String} {id : Nat} {r : Rule} (hrule : g.rule? id = some r)
    (h : Fails g caseSensitive room (.alternatives r.alternatives) pieces) :
    Fails g caseSensitive (room + 1) (.element (.rule name id)) pieces :=
  fun active hactive p hp => .rule (by omega) hrule (h (active + 1) (by omega) p hp)

theorem reads_notAhead {body : Element} (h : Fails g caseSensitive room (.element body) pieces) :
    Reads g caseSensitive room (.element (.notAhead body)) pieces pieces [] :=
  fun active hactive p hp =>
    ⟨p, [], .notAhead (h active hactive p hp), hp, rfl,
      fun hless => absurd hless (Nat.lt_irrefl _)⟩

theorem fails_notAhead {body : Element}
    (h : Reads g caseSensitive room (.element body) pieces left kinds) :
    Fails g caseSensitive room (.element (.notAhead body)) pieces := by
  intro active hactive p hp
  obtain ⟨q, tokens, hpeg, _⟩ := h active hactive p hp
  exact .notAheadFails hpeg

/-- A move to less text changes the offset. -/
theorem Position.Reaches.offset_ne {p q : Position} (h : p.Reaches q)
    (hless : q.rest.length < p.rest.length) : q.offset ≠ p.offset := by
  obtain ⟨n, rfl⟩ := h
  intro hoffset
  rw [Position.advance_eq_self_of_offset hoffset] at hless
  exact absurd hless (Nat.lt_irrefl _)

/-- A repetition of items that are each read in front of what may follow one, up to pieces that
    are no item.  The induction is on the items. -/
theorem reads_repeated {α : Type} {body : Element} (follows : List Piece → Prop)
    (written : α → List Piece) (yielded : α → List Token.Kind) {rest : List Piece}
    (hrest : follows rest) (hend : Fails g caseSensitive room (.element body) rest)
    (hfollows : ∀ item rest, follows rest → follows (written item ++ rest))
    (hitem : ∀ item rest, follows rest →
      Reads g caseSensitive room (.element body) (written item ++ rest) rest (yielded item))
    (hwritten : ∀ item, written item ≠ []) (items : List α) :
    Reads g caseSensitive room (.element (.repeated body)) (items.flatMap written ++ rest) rest
      (items.flatMap yielded) ∧ follows (items.flatMap written ++ rest) := by
  induction items with
  | nil =>
    refine ⟨fun active hactive p hp => ?_, hrest⟩
    exact ⟨p, [], .repeatedStops (hend active hactive p hp), hp, rfl,
      fun hless => absurd hless (Nat.lt_irrefl _)⟩
  | cons item items ih =>
    obtain ⟨hitems, hfollow⟩ := ih
    rw [List.flatMap_cons, List.flatMap_cons, List.append_assoc]
    refine ⟨fun active hactive p hp => ?_, hfollows item _ hfollow⟩
    obtain ⟨q, tokens, hpeg, hq, hkinds, hless⟩ := hitem item _ hfollow active hactive p hp
    obtain ⟨r, more, hpeg', hr, hkinds', _⟩ := hitems active hactive q hq
    have hpos := List.length_pos_iff.mpr (hwritten item)
    have hlength : (items.flatMap written ++ rest).length <
        (written item ++ (items.flatMap written ++ rest)).length := by
      simp only [List.length_append]
      omega
    have hless := hless hlength
    have hle := hpeg'.reaches.length_le
    refine ⟨r, tokens ++ more, .repeatedGoes hpeg (hpeg.reaches.offset_ne hless) hpeg', hr, ?_,
      fun _ => by omega⟩
    rw [List.map_append, hkinds, hkinds']

end
end Compositing
