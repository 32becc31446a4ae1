import Compositing.Proofs.Number.Scan
import Compositing.Proofs.Recognition.Peg
import Compositing.Proofs.Text.Continuing

/-! # Gaps in front of a phrase

    A leaf skips white space and comments and then takes at least a character.
    So a phrase that matches either takes nothing at all and has no tokens, or
    comes behind the gap that it begins with.  Skipping that gap before the
    phrase is tried changes no more than where a match that takes nothing
    stays. -/

namespace Compositing

/-! ## Leaves take something -/

namespace Text

theorem ne_nil_of_mem_words_go {run text word : List Char} (h : word ∈ words.go run text) :
    word ≠ [] := by
  -- a run that is closed is not empty
  have hclosed : ∀ run : List Char, ¬ run.isEmpty = true → run.reverse ≠ [] := by simp
  fun_induction words.go run text
  all_goals grind

/-- No word is empty. -/
theorem ne_nil_of_mem_words {text word : List Char} (h : word ∈ words text) : word ≠ [] :=
  ne_nil_of_mem_words_go h

end Text

/-- A spelled word begins with a character. -/
theorem Lexeme.ne_nil_of_afterWord? {caseSensitive : Bool} {word text rest : List Char}
    (h : afterWord? caseSensitive word text = some rest) (hword : word ≠ []) : text ≠ [] := by
  rintro rfl
  obtain ⟨w, word, rfl⟩ := List.exists_cons_of_ne_nil hword
  cases h

/-- A spelled literal takes a character. -/
theorem Lexeme.matchLiteral_takes {caseSensitive : Bool} {literal text : List Char} {n : Nat}
    (h : matchLiteral caseSensitive literal text = some n) : 0 < n ∧ text ≠ [] := by
  unfold matchLiteral at h
  cases hwords : Text.words literal with
  | nil =>
    -- a literal without words stands for itself
    simp only [hwords] at h
    by_cases hempty : literal = []
    · simp [hempty] at h
    · simp only [List.isEmpty_iff, hempty, if_false] at h
      obtain ⟨rest, hrest, rfl⟩ := Option.map_eq_some_iff.mp h
      exact ⟨List.length_pos_iff.mpr hempty, ne_nil_of_afterWord? hrest hempty⟩
  | cons word words =>
    have hword : word ≠ [] := Text.ne_nil_of_mem_words (hwords ▸ List.mem_cons_self)
    simp only [hwords] at h
    cases hafter : afterWord? caseSensitive word text with
    | none =>
      rw [hafter] at h
      cases h
    | some rest =>
      simp only [hafter] at h
      obtain ⟨length, _, rfl⟩ := Option.map_eq_some_iff.mp h
      have hpos := List.length_pos_iff.mpr hword
      exact ⟨by omega, ne_nil_of_afterWord? hafter hword⟩

/-- A numeral takes a character. -/
theorem Number.scan_takes {text : List Char} {n : Nat} (h : scan text = some n) :
    0 < n ∧ text ≠ [] := by
  rw [scan_eq] at h
  split at h
  · cases h
  · rename_i hmantissa
    simp only at h
    split at h
    · cases h
    · have hlength := Option.some.inj h
      refine ⟨by omega, ?_⟩
      rintro rfl
      exact hmantissa rfl

namespace Scan

/-- A scanned number takes a character. -/
theorem number_takes {text : List Char} {n : Nat} {x : Number}
    (h : number text = some (n, x)) : 0 < n ∧ text ≠ [] := by
  unfold number at h
  cases hscan : Number.scan text with
  | none =>
    rw [hscan] at h
    cases h
  | some length =>
    rw [hscan] at h
    obtain ⟨_, _, hpair⟩ := Option.map_eq_some_iff.mp h
    cases hpair
    exact Number.scan_takes hscan

/-- A label takes a character. -/
theorem label_takes {text : List Char} {n : Nat} {s : String} (h : label text = some (n, s)) :
    0 < n ∧ text ≠ [] := by
  have hne : text ≠ [] := by
    rintro rfl
    cases h
  refine ⟨?_, hne⟩
  unfold label at h
  split at h
  · simp only at h
    split at h
    · cases h
      omega
    · cases h
  · simp only at h
    split at h
    · cases h
    · rename_i hvalue
      cases h
      exact List.length_pos_iff.mpr (by simpa using hvalue)

/-- A run takes a character. -/
theorem run_takes {chars text : List Char} {negated : Bool} {n : Nat} {s : String}
    (h : run chars negated text = some (n, s)) : 0 < n ∧ text ≠ [] := by
  unfold run at h
  simp only at h
  split at h
  · cases h
  · rename_i hvalue
    cases h
    constructor
    · refine Nat.pos_of_ne_zero fun hzero => hvalue ?_
      rw [hzero]
      rfl
    · rintro rfl
      exact hvalue (by simp [Text.trimEnd])

end Scan

/-- A leaf that is accepted takes a character. -/
theorem Element.scanner_takes {caseSensitive : Bool} {e : Element}
    {scan : List Char → Option (Nat × Option Token.Kind)} {rest : List Char} {n : Nat}
    {kind? : Option Token.Kind} (hscanner : e.scanner? caseSensitive = some scan)
    (hscan : scan rest = some (n, kind?)) : 0 < n ∧ rest ≠ [] := by
  cases e with
  | terminal text emits token =>
    cases hscanner
    obtain ⟨_, hmatch, hpair⟩ := Option.map_eq_some_iff.mp hscan
    cases hpair
    exact Lexeme.matchLiteral_takes hmatch
  | number name =>
    cases hscanner
    obtain ⟨⟨_, x⟩, hmatch, hpair⟩ := Option.map_eq_some_iff.mp hscan
    cases hpair
    exact Scan.number_takes hmatch
  | label name =>
    cases hscanner
    obtain ⟨⟨_, s⟩, hmatch, hpair⟩ := Option.map_eq_some_iff.mp hscan
    cases hpair
    exact Scan.label_takes hmatch
  | run chars negated =>
    cases hscanner
    obtain ⟨⟨_, s⟩, hmatch, hpair⟩ := Option.map_eq_some_iff.mp hscan
    cases hpair
    exact Scan.run_takes hmatch
  | _ => cases hscanner

/-! ## Skipping -/

namespace Position

/-- Skipping comes to a text that begins with no gap. -/
theorem isPlain_skipTrivia (p : Position) : Text.IsPlain p.skipTrivia.rest := by
  obtain ⟨gap, rest, hp, hgap, hplain | ⟨body, hbody, hcomment⟩⟩ := Text.exists_gap p.rest
  · rw [skipTrivia_rest hp hgap hplain]
    exact hplain
  · have hending : Text.IsEnding p.rest :=
      ⟨gap, hgap, .inr ⟨body, hbody, by rw [hp, hcomment]⟩⟩
    rw [skipTrivia_ending hending]
    exact Text.isPlain_nil

/-- Skipping twice is skipping once. -/
@[simp] theorem skipTrivia_skipTrivia (p : Position) :
    p.skipTrivia.skipTrivia = p.skipTrivia :=
  skipTrivia_plain p.isPlain_skipTrivia

/-- A move never leads back. -/
theorem Reaches.offset_le {p q : Position} (h : p.Reaches q) : p.offset ≤ q.offset := by
  obtain ⟨n, rfl⟩ := h
  rw [advance_offset]
  omega

/-- A move that does not change the offset leads nowhere. -/
theorem Reaches.eq_of_offset {p q : Position} (h : p.Reaches q) (hoffset : q.offset = p.offset) :
    q = p := by
  obtain ⟨n, rfl⟩ := h
  exact advance_eq_self_of_offset hoffset

/-- Moving where there is something changes the offset. -/
theorem offset_lt_advance {p : Position} {n : Nat} (hn : 0 < n) (hrest : p.rest ≠ []) :
    p.offset < (p.advance n).offset := by
  have htake : p.rest.take n ≠ [] := by
    intro hnil
    rcases List.take_eq_nil_iff.mp hnil with hzero | hnil
    · omega
    · exact hrest hnil
  have hbytes : Text.byteLength (p.rest.take n) ≠ 0 :=
    fun hzero => htake (Text.byteLength_eq_zero_iff.mp hzero)
  rw [advance_offset]
  omega

end Position

/-! ## Matches behind a gap -/

namespace Position

/-- The outcome of a phrase at `p`, made one behind the gap at `p`: a match that stays stays
    there. -/
def behindTrivia (p : Position) (outcome : Option (Position × List Token)) :
    Option (Position × List Token) :=
  outcome.map fun (q, tokens) => (if q = p then p.skipTrivia else q, tokens)

theorem behindTrivia_self (p : Position) (tokens : List Token) :
    p.behindTrivia (some (p, tokens)) = some (p.skipTrivia, tokens) := by
  simp [behindTrivia]

theorem behindTrivia_of_passes {p q : Position} (h : p.skipTrivia.offset < q.offset)
    (tokens : List Token) : p.behindTrivia (some (q, tokens)) = some (q, tokens) := by
  have hforward := (reaches_skipTrivia p).offset_le
  have hne : q ≠ p := by
    rintro rfl
    omega
  simp [behindTrivia, hne]

end Position

namespace Peg
variable {g : Grammar} {caseSensitive : Bool} {active : Nat} {phrase : Phrase} {p : Position}

/-- A match stays where it began and has no tokens, or passes the gap in front of it and
    more. -/
theorem stays_or_passes {q : Position} {tokens : List Token}
    (h : Peg g caseSensitive active phrase p (some (q, tokens))) :
    (q = p ∧ tokens = []) ∨ p.skipTrivia.offset < q.offset := by
  generalize ho : some (q, tokens) = outcome at h
  induction h generalizing q tokens with
  | leaf hscanner hscan =>
    cases ho
    obtain ⟨hpos, hrest⟩ := Element.scanner_takes hscanner hscan
    exact .inr (Position.offset_lt_advance hpos hrest)
  | leafFails _ _ | ruleMissing _ _ | ruleTooDeep _ | notAheadFails _ _ | consFails _ _
  | consFailsLater _ _ _ _ | noAlternative => cases ho
  | rule _ _ _ ih | repeatedRests _ _ ih | optionalTaken _ ih | choice _ ih
  | firstFails _ _ _ ih => exact ih ho
  | firstMatches _ ih => exact ih ho
  | repeatedStops _ _ | optionalLeft _ _ | notAhead _ _ | nil =>
    cases ho
    exact .inl ⟨rfl, rfl⟩
  | repeatedGoes _ hoffset hrest ihbody _ =>
    cases ho
    rcases ihbody rfl with ⟨hstays, _⟩ | hpasses
    · exact absurd (congrArg Position.offset hstays) hoffset
    · have hforward := hrest.reaches.offset_le
      exact .inr (by omega)
  | cons _ hrest ihfirst ihrest =>
    cases ho
    rcases ihfirst rfl with ⟨rfl, rfl⟩ | hpasses
    · exact ihrest rfl
    · have hforward := hrest.reaches.offset_le
      exact .inr (by omega)

/-- Behind the gap in front of it a phrase has the outcome that it has in front of the gap, but
    that a match that stays stays behind the gap. -/
theorem skipTrivia {outcome : Option (Position × List Token)}
    (h : Peg g caseSensitive active phrase p outcome) :
    Peg g caseSensitive active phrase p.skipTrivia (p.behindTrivia outcome) := by
  induction h with
  | @leaf active _ _ p _ _ hscanner hscan =>
    obtain ⟨hpos, hrest⟩ := Element.scanner_takes hscanner hscan
    rw [Position.behindTrivia_of_passes (Position.offset_lt_advance hpos hrest)]
    rw [← Position.skipTrivia_skipTrivia] at hscan
    have hleaf : Peg g caseSensitive active _ p.skipTrivia _ := .leaf hscanner hscan
    rwa [Position.skipTrivia_skipTrivia] at hleaf
  | leafFails hscanner hscan =>
    rw [← Position.skipTrivia_skipTrivia] at hscan
    exact .leafFails hscanner hscan
  | rule hactive hrule _ ih => exact .rule hactive hrule ih
  | ruleMissing hactive hrule => exact .ruleMissing hactive hrule
  | ruleTooDeep hdeep => exact .ruleTooDeep hdeep
  | repeatedStops _ ih =>
    rw [Position.behindTrivia_self]
    exact .repeatedStops ih
  | repeatedRests hbody hoffset ih =>
    have hstays := hbody.reaches.eq_of_offset hoffset
    rw [hstays, Position.behindTrivia_self] at ih ⊢
    exact .repeatedRests ih rfl
  | repeatedGoes hbody hoffset hrest ihbody _ =>
    rcases hbody.stays_or_passes with ⟨hstays, _⟩ | hpasses
    · exact absurd (congrArg Position.offset hstays) hoffset
    · have hforward := hrest.reaches.offset_le
      rw [Position.behindTrivia_of_passes hpasses] at ihbody
      rw [Position.behindTrivia_of_passes (by omega)]
      exact .repeatedGoes ihbody (by omega) hrest
  | optionalTaken _ ih => exact .optionalTaken ih
  | optionalLeft _ ih =>
    rw [Position.behindTrivia_self]
    exact .optionalLeft ih
  | notAhead _ ih =>
    rw [Position.behindTrivia_self]
    exact .notAhead ih
  | notAheadFails _ ih => exact .notAheadFails ih
  | choice _ ih => exact .choice ih
  | nil =>
    rw [Position.behindTrivia_self]
    exact .nil
  | cons hfirst hrest ihfirst ihrest =>
    rcases hfirst.stays_or_passes with ⟨rfl, rfl⟩ | hpasses
    · -- the first part stays, so the others begin behind the gap too
      rw [Position.behindTrivia_self] at ihfirst
      exact .cons ihfirst ihrest
    · have hforward := hrest.reaches.offset_le
      rw [Position.behindTrivia_of_passes hpasses] at ihfirst
      rw [Position.behindTrivia_of_passes (by omega)]
      exact .cons ihfirst hrest
  | consFails _ ih => exact .consFails ih
  | consFailsLater hfirst hrest ihfirst ihrest =>
    rcases hfirst.stays_or_passes with ⟨rfl, rfl⟩ | hpasses
    · rw [Position.behindTrivia_self] at ihfirst
      exact .consFailsLater ihfirst ihrest
    · rw [Position.behindTrivia_of_passes hpasses] at ihfirst
      exact .consFailsLater ihfirst hrest
  | noAlternative => exact .noAlternative
  | firstMatches _ ih => exact .firstMatches ih
  | firstFails _ _ ihfirst ihrest => exact .firstFails ihfirst ihrest

end Peg
end Compositing
