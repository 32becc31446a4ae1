import Compositing.Proofs.Recognition.Parts
import Compositing.Proofs.Recognition.Regions
import Compositing.Proofs.Recognition.Spans
import Compositing.Proofs.Recognition.Trivia
import Mathlib.Data.List.TakeWhile
import Mathlib.Order.Bounds.Basic

/-! # Where a match fails

    A match fails at a place if a leaf is tried there in vain, outside of every
    lookahead.  Many leaves may fail in its course, also ones of alternatives
    that are given up, of options that are left out and of the last rounds of
    repetitions.  The furthest failure that is kept is the greatest of their
    offsets, or the offset where the match began if none lies behind it.

    An attempt only ever raises the offset that it is given.  By how much is
    said by the failures of its trial: those of a trial without parts are seen
    at once, and those of another trial are the failures of its parts. -/

namespace Compositing

/-! ## Failures in the course of a trial -/

namespace Trial

/-- A leaf is tried outside of every lookahead, and is not accepted behind the white space and
    the comments in front of it. -/
def IsVain (caseSensitive : Bool) (t : Trial) : Prop :=
  t.emitting = true ∧ ∃ e scan, t.phrase = .element e ∧ e.scanner? caseSensitive = some scan ∧
    scan t.position.skipTrivia.rest = none

/-- The offsets of the places where leaves are tried in vain in the course of a trial. -/
def failures (g : Grammar) (caseSensitive : Bool) (t : Trial) : Set Nat :=
  {offset | ∃ t', Relation.ReflTransGen (Tries g caseSensitive) t t' ∧
    t'.IsVain caseSensitive ∧ offset = t'.position.skipTrivia.offset}

variable {g : Grammar} {caseSensitive : Bool}

/-- Only a leaf is tried in vain itself. -/
theorem IsVain.scanner {active : Nat} {emitting : Bool} {e : Element} {p : Position}
    (h : IsVain caseSensitive ⟨active, emitting, .element e, p⟩) :
    emitting = true ∧ ∃ scan, e.scanner? caseSensitive = some scan ∧
      scan p.skipTrivia.rest = none := by
  obtain ⟨hemitting, e', scan, hphrase, hscanner, hscan⟩ := h
  cases hphrase
  exact ⟨hemitting, scan, hscanner, hscan⟩

/-- What has a part is not tried in vain itself. -/
theorem Tries.not_isVain {t t' : Trial} (htries : Tries g caseSensitive t t') :
    ¬ t.IsVain caseSensitive := by
  intro hvain
  obtain ⟨active, emitting, phrase, p⟩ := t
  obtain ⟨_, e, scan, hphrase, hscanner, _⟩ := hvain
  simp only at hphrase
  rw [hphrase] at htries
  exact absurd ((hasParts_leaf hscanner t').mp htries) List.not_mem_nil

/-- A trial fails where it is in vain itself and where its parts fail. -/
theorem mem_failures {t : Trial} {offset : Nat} :
    offset ∈ failures g caseSensitive t ↔
      (t.IsVain caseSensitive ∧ offset = t.position.skipTrivia.offset) ∨
      ∃ t', Tries g caseSensitive t t' ∧ offset ∈ failures g caseSensitive t' := by
  constructor
  · intro hfails
    obtain ⟨t', hreach, hvain⟩ := hfails
    rcases hreach.cases_head with hself | ⟨part, htries, hreach⟩
    · rw [hself]
      exact .inl hvain
    · exact .inr ⟨part, htries, t', hreach, hvain⟩
  · intro hfails
    rcases hfails with hvain | ⟨part, htries, t', hreach, hvain⟩
    · exact ⟨t, .refl, hvain⟩
    · exact ⟨t', .head htries hreach, hvain⟩

/-- Within a lookahead all is silent. -/
theorem silent_of_reaches {t t' : Trial}
    (hreach : Relation.ReflTransGen (Tries g caseSensitive) t t')
    (hsilent : t.emitting = false) : t'.emitting = false := by
  induction hreach with
  | refl => exact hsilent
  | tail _ htries ih =>
    -- a part is as silent as its trial, or the body of a lookahead
    cases htries <;> first | exact ih | rfl

/-- So no failure is seen there. -/
theorem failures_silent {t : Trial} (hsilent : t.emitting = false) :
    failures g caseSensitive t = ∅ := by
  rw [Set.eq_empty_iff_forall_notMem]
  intro offset hfails
  obtain ⟨t', hreach, ⟨hemitting, _⟩, _⟩ := hfails
  rw [silent_of_reaches hreach hsilent] at hemitting
  cases hemitting

/-! ## Raising an offset -/

/-- Raised by the failures of a trial, one offset becomes the other. -/
def Raises (g : Grammar) (caseSensitive : Bool) (t : Trial) (offset raised : Nat) : Prop :=
  IsGreatest (insert offset (failures g caseSensitive t)) raised

/-- A trial that neither is in vain nor tries anything raises nothing. -/
theorem Raises.of_none {t : Trial} (hparts : HasParts g caseSensitive t [])
    (hvain : ¬ t.IsVain caseSensitive) (offset : Nat) :
    Raises g caseSensitive t offset offset := by
  have hnone : failures g caseSensitive t = ∅ := by
    rw [Set.eq_empty_iff_forall_notMem]
    intro o hfails
    rcases mem_failures.mp hfails with ⟨hself, _⟩ | ⟨t', htries, _⟩
    · exact hvain hself
    · exact absurd ((hparts t').mp htries) List.not_mem_nil
  unfold Raises
  rw [hnone, insert_empty_eq]
  exact isGreatest_singleton

/-- A leaf in vain raises to where it is tried. -/
theorem Raises.of_vain {t : Trial} (hvain : t.IsVain caseSensitive) (offset : Nat) :
    Raises g caseSensitive t offset (max offset t.position.skipTrivia.offset) := by
  have hself : failures g caseSensitive t = {t.position.skipTrivia.offset} := by
    apply Set.ext
    intro o
    rw [mem_failures, Set.mem_singleton_iff]
    constructor
    · intro hfails
      rcases hfails with ⟨_, ho⟩ | ⟨t', htries, _⟩
      · exact ho
      · exact absurd hvain htries.not_isVain
    · intro ho
      exact .inl ⟨hvain, ho⟩
  unfold Raises
  rw [hself]
  exact isGreatest_pair

/-- A trial with one part raises as the part does. -/
theorem Raises.of_one {t part : Trial} (hparts : HasParts g caseSensitive t [part])
    {offset raised : Nat} (h : Raises g caseSensitive part offset raised) :
    Raises g caseSensitive t offset raised := by
  have hsame : failures g caseSensitive t = failures g caseSensitive part := by
    apply Set.ext
    intro o
    rw [mem_failures]
    constructor
    · intro hfails
      rcases hfails with ⟨hvain, _⟩ | ⟨t', htries, hfails⟩
      · exact absurd hvain ((hparts part).mpr (List.mem_singleton_self part)).not_isVain
      · rwa [List.mem_singleton.mp ((hparts t').mp htries)] at hfails
    · intro hfails
      exact .inr ⟨part, (hparts part).mpr (List.mem_singleton_self part), hfails⟩
  unfold Raises
  rw [hsame]
  exact h

/-- A trial with two parts raises as one after the other does. -/
theorem Raises.of_two {t part part' : Trial}
    (hparts : HasParts g caseSensitive t [part, part']) {offset between raised : Nat}
    (h : Raises g caseSensitive part offset between)
    (h' : Raises g caseSensitive part' between raised) :
    Raises g caseSensitive t offset raised := by
  have hboth : failures g caseSensitive t =
      failures g caseSensitive part ∪ failures g caseSensitive part' := by
    apply Set.ext
    intro o
    rw [mem_failures, Set.mem_union]
    constructor
    · intro hfails
      rcases hfails with ⟨hvain, _⟩ | ⟨t', htries, hfails⟩
      · exact absurd hvain ((hparts part).mpr List.mem_cons_self).not_isVain
      · rcases List.mem_cons.mp ((hparts t').mp htries) with hfirst | hsecond
        · rw [hfirst] at hfails
          exact .inl hfails
        · rw [List.mem_singleton.mp hsecond] at hfails
          exact .inr hfails
    · intro hfails
      rcases hfails with hfails | hfails
      · exact .inr ⟨part, (hparts part).mpr List.mem_cons_self, hfails⟩
      · exact .inr ⟨part', (hparts part').mpr (List.mem_cons_of_mem _ List.mem_cons_self), hfails⟩
  -- the greatest of the first is below the greatest of the second, and one of either is attained
  unfold Raises at h h' ⊢
  rw [hboth]
  have hle : between ≤ raised := h'.2 (Set.mem_insert between _)
  constructor
  · rcases h'.1 with hsame | hfails
    · rw [hsame]
      rcases h.1 with hsame | hfails
      · exact .inl hsame
      · exact .inr (.inl hfails)
    · exact .inr (.inr hfails)
  · intro o ho
    rcases ho with hsame | hfails | hfails
    · exact (h.2 (.inl hsame)).trans hle
    · exact (h.2 (.inr hfails)).trans hle
    · exact h'.2 (.inr hfails)

end Trial

/-! ## Attempts -/

namespace Recognition
open Trial

/-- The furthest failure at the end of an attempt. -/
def Attempt.furthest : Attempt → Nat
  | .matched p => p.furthest
  | .failed furthest => furthest

/-- An attempt from `p` on raises the furthest failure by those of the trial of a phrase. -/
def Attempt.Blames (g : Grammar) (caseSensitive : Bool) (active : Nat) (phrase : Phrase)
    (emitting : Bool) (p : Progress) (attempt : Attempt) : Prop :=
  Raises g caseSensitive ⟨active, emitting, phrase, p.position⟩ p.furthest attempt.furthest

section
variable {g : Grammar} {caseSensitive : Bool} {active : Nat}

theorem leaf_blames {e : Element} {scan : List Char → Option (Nat × Option Token.Kind)}
    (hscanner : e.scanner? caseSensitive = some scan) (emitting : Bool) (p : Progress) :
    (leaf emitting scan p).Blames g caseSensitive active (.element e) emitting p := by
  unfold leaf
  cases hscan : scan p.position.skipTrivia.rest with
  | none =>
    simp only [hscan]
    cases emitting with
    | true => exact .of_vain ⟨rfl, e, scan, rfl, hscanner, hscan⟩ _
    | false =>
      -- what fails within a lookahead is not in vain
      apply Raises.of_none (hasParts_leaf hscanner)
      intro hvain
      cases hvain.1
  | some result =>
    obtain ⟨n, kind?⟩ := result
    simp only [hscan]
    apply Raises.of_none (hasParts_leaf hscanner)
    intro hvain
    obtain ⟨_, scan', hscanner', hscan'⟩ := hvain.scanner
    rw [← Option.some.inj (hscanner.symm.trans hscanner'), hscan] at hscan'
    cases hscan'

/-- The rounds of a repetition blame what the repetition does.  The induction is on the rounds:
    each raises what the rounds before it have raised. -/
theorem rounds_blame {body : Element} {emitting : Bool} {attempt : Progress → Attempt}
    (hmeans : ∀ p, (attempt p).Means g caseSensitive active (.element body) emitting p)
    (hblames : ∀ p, (attempt p).Blames g caseSensitive active (.element body) emitting p)
    {p q : Progress} {n : Nat} (h : Rounds attempt p n q) :
    (Attempt.matched q).Blames g caseSensitive active (.element (.repeated body)) emitting p := by
  induction h with
  | @fails p furthest hround =>
    have hp := hmeans p
    have hraises := hblames p
    rw [hround] at hp hraises
    exact .of_one (hasParts_lastRound hp nofun) hraises
  | @stays p q hround hoffset =>
    have hp := hmeans p
    have hraises := hblames p
    rw [hround] at hp hraises
    obtain ⟨tokens, hpeg, _⟩ := hp
    refine .of_one (hasParts_lastRound hpeg ?_) hraises
    intro result hresult
    rw [← Option.some.inj hresult]
    exact hoffset
  | @goes p q r n hround hoffset _ ih =>
    have hp := hmeans p
    have hraises := hblames p
    rw [hround] at hp hraises
    obtain ⟨tokens, hpeg, _⟩ := hp
    exact .of_two (hasParts_rounds hpeg hoffset) hraises ih

/-! ## Elements -/

/-- What is called for a rule blames what the rule does. -/
def CallBlames (g : Grammar) (caseSensitive : Bool) (active : Nat)
    (call : Bool → Nat → Progress → Attempt) : Prop :=
  ∀ emitting name id p,
    (call emitting id p).Blames g caseSensitive active (.element (.rule name id)) emitting p

variable {call : Bool → Nat → Progress → Attempt}

mutual

/-- An attempt at an element. -/
theorem element_blames (hmeans : CallMeans g caseSensitive active call)
    (hcall : CallBlames g caseSensitive active call) (e : Element) (emitting : Bool)
    (p : Progress) :
    (element caseSensitive call emitting e p).Blames g caseSensitive active (.element e)
      emitting p := by
  cases e with
  | terminal text emits token =>
    exact leaf_blames (e := .terminal text emits token) rfl emitting p
  | number name => exact leaf_blames (e := .number name) rfl emitting p
  | label name => exact leaf_blames (e := .label name) rfl emitting p
  | run chars negated => exact leaf_blames (e := .run chars negated) rfl emitting p
  | rule name id => exact hcall emitting name id p
  | repeated body =>
    have hbody := element_means hmeans body emitting
    obtain ⟨n, hrounds, _⟩ := exists_rounds (leadsForward_of_means hbody) p.position.rest p
      (Nat.le_refl _)
    exact rounds_blame hbody (element_blames hmeans hcall body emitting) hrounds
  | optional body =>
    have hbody := element_blames hmeans hcall body emitting p
    unfold element
    cases hattempt : element caseSensitive call emitting body p with
    | matched q =>
      rw [hattempt] at hbody
      exact .of_one hasParts_optional hbody
    | failed furthest =>
      rw [hattempt] at hbody
      exact .of_one hasParts_optional hbody
  | notAhead body =>
    -- the body is tried silently, so the lookahead raises nothing
    have hsilent : Raises g caseSensitive ⟨active, false, .element body, p.position⟩
        p.furthest p.furthest := by
      unfold Raises
      rw [failures_silent rfl, insert_empty_eq]
      exact isGreatest_singleton
    unfold element
    cases element caseSensitive call false body p with
    | matched q => exact .of_one hasParts_notAhead hsilent
    | failed furthest => exact .of_one hasParts_notAhead hsilent
  | choice sequences =>
    exact .of_one hasParts_choice (alternatives_blame hmeans hcall sequences emitting p)

/-- An attempt at a sequence. -/
theorem sequence_blames (hmeans : CallMeans g caseSensitive active call)
    (hcall : CallBlames g caseSensitive active call) (elements : List Element)
    (emitting : Bool) (p : Progress) :
    (sequence caseSensitive call emitting elements p).Blames g caseSensitive active
      (.sequence elements) emitting p := by
  cases elements with
  | nil =>
    apply Raises.of_none hasParts_nil
    intro hvain
    obtain ⟨_, _, _, hphrase, _⟩ := hvain
    cases hphrase
  | cons first rest =>
    have hfirst := element_means hmeans first emitting p
    have hraises := element_blames hmeans hcall first emitting p
    unfold sequence
    cases hattempt : element caseSensitive call emitting first p with
    | failed furthest =>
      rw [hattempt] at hfirst hraises
      exact .of_one (hasParts_failing hfirst) hraises
    | matched q =>
      rw [hattempt] at hfirst hraises
      obtain ⟨tokens, hpeg, _⟩ := hfirst
      exact .of_two (hasParts_following hpeg) hraises
        (sequence_blames hmeans hcall rest emitting q)

/-- An attempt at alternatives. -/
theorem alternatives_blame (hmeans : CallMeans g caseSensitive active call)
    (hcall : CallBlames g caseSensitive active call) (sequences : List (List Element))
    (emitting : Bool) (p : Progress) :
    (alternatives caseSensitive call emitting sequences p).Blames g caseSensitive active
      (.alternatives sequences) emitting p := by
  cases sequences with
  | nil =>
    apply Raises.of_none hasParts_noAlternative
    intro hvain
    obtain ⟨_, _, _, hphrase, _⟩ := hvain
    cases hphrase
  | cons first rest =>
    have hfirst := sequence_means hmeans first emitting p
    have hraises := sequence_blames hmeans hcall first emitting p
    unfold alternatives
    cases hattempt : sequence caseSensitive call emitting first p with
    | matched q =>
      rw [hattempt] at hfirst hraises
      obtain ⟨tokens, hpeg, _⟩ := hfirst
      exact .of_one (hasParts_matching hpeg) hraises
    | failed furthest =>
      rw [hattempt] at hfirst hraises
      -- the failures of an alternative that is given up are kept
      exact .of_two (hasParts_others hfirst) hraises
        (alternatives_blame hmeans hcall rest emitting { p with furthest })

end

/-! ## Rules -/

/-- A rule raises as its alternatives do, one level deeper, and nothing where it is refused. -/
theorem rule_blames (depth active : Nat) (hdepth : depth + active = maxRuleDepth) :
    CallBlames g caseSensitive active (rule g caseSensitive depth) := by
  have hrefused : ∀ {active emitting name id} {p : Position} (offset : Nat),
      maxRuleDepth ≤ active ∨ g.rule? id = none →
      Raises g caseSensitive ⟨active, emitting, .element (.rule name id), p⟩ offset offset := by
    intro active emitting name id p offset hrefused
    apply Raises.of_none (hasParts_refused hrefused)
    intro hvain
    obtain ⟨_, _, hscanner, _⟩ := hvain.scanner
    cases hscanner
  induction depth generalizing active with
  | zero =>
    intro emitting name id p
    exact hrefused _ (.inl (by omega))
  | succ depth ih =>
    intro emitting name id p
    have hdeeper : depth + (active + 1) = maxRuleDepth := by omega
    unfold rule
    cases hrule : g.rule? id with
    | none => exact hrefused _ (.inr hrule)
    | some r =>
      have hactive : active < maxRuleDepth := by omega
      have hbody := alternatives_blame (rule_means depth (active + 1) hdeeper)
        (ih (active + 1) hdeeper) r.alternatives emitting p
      exact .of_one (hasParts_rule hactive hrule) hbody

end
end Recognition

/-! ## The furthest failure -/

namespace Trial
variable {g : Grammar} {caseSensitive : Bool}

/-- A part is tried at a place at or behind that of its trial. -/
theorem Tries.reaches {t t' : Trial} (htries : Tries g caseSensitive t t') :
    t.position.Reaches t'.position := by
  cases htries with
  | rounds hbody _ => exact hbody.reaches
  | following hfirst => exact hfirst.reaches
  | _ => exact .refl _

/-- What is tried in the course of a trial is tried at or behind its place. -/
theorem reaches_of_reflTransGen {t t' : Trial}
    (hreach : Relation.ReflTransGen (Tries g caseSensitive) t t') :
    t.position.Reaches t'.position := by
  induction hreach with
  | refl => exact .refl _
  | tail _ htries ih => exact ih.trans htries.reaches

end Trial

namespace Recognition

/-- A phrase is matched behind `before`, and its furthest failure is behind `passed`: no leaf is
    tried in vain further on, and one is tried in vain there if anything is passed.  What is
    ahead then is the end of the text, or begins with neither white space nor a comment. -/
structure IsFurthest (g : Grammar) (caseSensitive : Bool) (phrase : Phrase)
    (before passed ahead : List Char) (line : Nat) : Prop where
  greatest : IsGreatest
    (insert (Text.byteLength before) (Trial.failures g caseSensitive
      ⟨0, true, phrase, ⟨passed ++ ahead, Text.byteLength before, line⟩⟩))
    (Text.byteLength (before ++ passed))
  plain : passed = [] ∨ Text.IsPlain ahead

/-- The furthest failure of an attempt that blames what a phrase does. -/
theorem exists_isFurthest {g : Grammar} {caseSensitive : Bool} {phrase : Phrase}
    {attempt : Progress → Attempt} {before after : List Char} {line : Nat}
    (hblames : ∀ p, (attempt p).Blames g caseSensitive 0 phrase true p) :
    ∃ passed ahead, after = passed ++ ahead ∧
      IsFurthest g caseSensitive phrase before passed ahead line ∧
      (ofAttempt attempt ⟨after, Text.byteLength before, line⟩ (Text.byteLength before)).furthest =
        Text.byteLength (before ++ passed) := by
  have hfurthest : (ofAttempt attempt ⟨after, Text.byteLength before, line⟩
      (Text.byteLength before)).furthest =
      (attempt ⟨⟨after, Text.byteLength before, line⟩, [], Text.byteLength before⟩).furthest := by
    unfold ofAttempt
    cases attempt ⟨⟨after, Text.byteLength before, line⟩, [], Text.byteLength before⟩ <;> rfl
  have hgreatest : IsGreatest
      (insert (Text.byteLength before) (Trial.failures g caseSensitive
        ⟨0, true, phrase, ⟨after, Text.byteLength before, line⟩⟩))
      (attempt ⟨⟨after, Text.byteLength before, line⟩, [], Text.byteLength before⟩).furthest :=
    hblames ⟨⟨after, Text.byteLength before, line⟩, [], Text.byteLength before⟩
  rw [hfurthest]
  -- the greatest offset is where the match began, or that of a leaf tried in vain
  rcases hgreatest.1 with hstart | ⟨t, hreach, _, hoffset⟩
  · rw [hstart] at hgreatest ⊢
    have hnothing : before = before ++ [] := (List.append_nil before).symm
    refine ⟨[], after, rfl, ⟨?_, .inl rfl⟩, congrArg Text.byteLength hnothing⟩
    rw [← hnothing]
    exact hgreatest
  · have hplace := (Trial.reaches_of_reflTransGen hreach).trans (Position.reaches_skipTrivia _)
    obtain ⟨passed, ahead, hafter, hposition⟩ := hplace.exists_passed
    have hplain := t.position.isPlain_skipTrivia
    rw [hposition] at hoffset hplain
    rw [hoffset, hafter] at hgreatest
    exact ⟨passed, ahead, hafter, ⟨hgreatest, .inr hplain⟩, hoffset⟩

/-- The furthest failure of matching an element between two parts of a text. -/
theorem recognizeAt_furthest (g : Grammar) (caseSensitive : Bool) (e : Element)
    (before after : List Char) (line : Nat) :
    ∃ passed ahead, after = passed ++ ahead ∧
      IsFurthest g caseSensitive (.element e) before passed ahead line ∧
      (g.recognizeAt caseSensitive e (before ++ after) (Text.byteLength before) line).furthest =
        Text.byteLength (before ++ passed) := by
  unfold Grammar.recognizeAt Grammar.recognize
  rw [Position.seek_append]
  exact exists_isFurthest
    (element_blames (rule_means maxRuleDepth 0 rfl) (rule_blames maxRuleDepth 0 rfl) e true)

/-- The furthest failure of matching a rule there. -/
theorem recognizeRuleAt_furthest (g : Grammar) (caseSensitive : Bool) (name : String) (id : Nat)
    (before after : List Char) :
    ∃ passed ahead, after = passed ++ ahead ∧
      IsFurthest g caseSensitive (.element (.rule name id)) before passed ahead
        (1 + Text.newlines before) ∧
      (g.recognizeRuleAt caseSensitive id (before ++ after) (Text.byteLength before)).furthest =
        Text.byteLength (before ++ passed) := by
  unfold Grammar.recognizeRuleAt
  simp only [Position.start_advanceBytes]
  exact exists_isFurthest (rule_blames maxRuleDepth 0 rfl true name id)

end Recognition

/-! ## What a mismatch shows -/

namespace Text

/-- The word stands behind blanks at the front of a text, and goes on to a blank or the end. -/
structure IsFirstWord (word text : List Char) : Prop where
  nonempty : word ≠ []
  letters : ∀ c ∈ word, isBlank c = false
  parts : ∃ blanks behind, text = blanks ++ (word ++ behind) ∧
    (∀ c ∈ blanks, isBlank c = true) ∧ ∀ c ∈ behind.head?, isBlank c = true

/-- No word is cut short of what a text begins with, up to the first character of a kind. -/
theorem dropWhile_head (isKind : Char → Bool) (text : List Char) {c : Char}
    (hc : c ∈ (text.dropWhile isKind).head?) : isKind c = false := by
  have hhead := List.head?_dropWhile_not isKind text
  rw [Option.mem_def.mp hc] at hhead
  simpa using hhead

/-- A text is blank, or its first word is found. -/
theorem firstWord?_cases (text : List Char) :
    ((∀ c ∈ text, isBlank c = true) ∧ firstWord? text = none) ∨
    ∃ word, IsFirstWord word text ∧ firstWord? text = some word := by
  have htext : text = text.takeWhile isBlank ++ trimStart text :=
    List.takeWhile_append_dropWhile.symm
  have hblanks : ∀ c ∈ text.takeWhile isBlank, isBlank c = true :=
    fun c hc => List.mem_takeWhile_imp hc
  unfold firstWord?
  cases hword : (trimStart text).takeWhile (!isBlank ·) with
  | nil =>
    -- what is left begins with no blank and with nothing else, so nothing is left
    have hnone : trimStart text = [] := by
      cases hrest : trimStart text with
      | nil => rfl
      | cons c rest =>
        have hc : isBlank c = false := by
          apply dropWhile_head isBlank text
          unfold trimStart at hrest
          rw [hrest]
          exact Option.mem_some_self c
        rw [hrest, List.takeWhile_cons_of_pos (by rw [hc]; rfl)] at hword
        cases hword
    rw [hnone, List.append_nil] at htext
    rw [← htext] at hblanks
    exact .inl ⟨hblanks, rfl⟩
  | cons c word =>
    refine .inr ⟨c :: word, ⟨List.cons_ne_nil c word, ?_, ?_⟩, rfl⟩
    · intro d hd
      rw [← hword] at hd
      simpa using List.mem_takeWhile_imp hd
    · refine ⟨text.takeWhile isBlank, (trimStart text).dropWhile (!isBlank ·), ?_, hblanks, ?_⟩
      · rw [← hword, List.takeWhile_append_dropWhile]
        exact htext
      · intro d hd
        simpa using dropWhile_head (!isBlank ·) (trimStart text) hd

/-- A text with a word has a letter. -/
theorem IsFirstWord.not_blank {word text : List Char} (h : IsFirstWord word text) :
    ¬ ∀ c ∈ text, isBlank c = true := by
  intro hblank
  obtain ⟨c, rest, hcons⟩ := List.exists_cons_of_ne_nil h.nonempty
  obtain ⟨blanks, behind, htext, _⟩ := h.parts
  have hword : c ∈ word := by
    rw [hcons]
    exact List.mem_cons_self
  have hmem : c ∈ text := by
    rw [htext]
    exact List.mem_append_right _ (List.mem_append_left _ hword)
  have hletter := h.letters c hword
  rw [hblank c hmem] at hletter
  cases hletter

end Text

namespace Mismatch

/-- What a mismatch shows of the text ahead of it: the first word of the text, cut to its
    limit, or that the script ends, and the latter exactly where only white space is ahead. -/
structure Shows (m : Mismatch) (ahead : List Char) : Prop where
  word : (∃ c ∈ ahead, Text.isBlank c = false) →
    ∃ word, Text.IsFirstWord word ahead ∧ m.nearbyText = String.ofList (word.take nearbyLimit)
  atEnd : m.nearbyText = endOfScript ↔ ∀ c ∈ ahead, Text.isBlank c = true

/-- The wording for the end of the script has a blank in it, so it is no part of a word. -/
theorem ofList_ne_endOfScript {word : List Char} (hword : ∀ c ∈ word, Text.isBlank c = false) :
    String.ofList (word.take nearbyLimit) ≠ endOfScript := by
  intro hend
  have hletters := congrArg String.toList hend
  rw [String.toList_ofList] at hletters
  have hspace : ' ' ∈ word.take nearbyLimit := by
    rw [hletters]
    decide
  cases hword ' ' (List.mem_of_mem_take hspace)

/-- The word nearby shows the text. -/
theorem shows_nearbyWord? {m : Mismatch} {ahead : List Char}
    (hnearby : m.nearby = nearbyWord? ahead) : m.Shows ahead := by
  unfold nearbyWord? at hnearby
  rcases Text.firstWord?_cases ahead with ⟨hblank, hnone⟩ | ⟨word, hword, hsome⟩
  · have htext : m.nearbyText = endOfScript := by
      rw [nearbyText, hnearby, hnone]
      rfl
    constructor
    · intro hletter
      obtain ⟨c, hc, hletter⟩ := hletter
      rw [hblank c hc] at hletter
      cases hletter
    · exact ⟨fun _ => hblank, fun _ => htext⟩
  · have htext : m.nearbyText = String.ofList (word.take nearbyLimit) := by
      rw [nearbyText, hnearby, hsome]
      rfl
    constructor
    · intro _
      exact ⟨word, hword, htext⟩
    · constructor
      · intro hend
        exact absurd (htext.symm.trans hend) (ofList_ne_endOfScript hword.letters)
      · intro hblank
        exact absurd hblank hword.not_blank

end Mismatch

/-! ## Mismatches -/

namespace Language
variable {α : Type}

/-- A mismatch between two parts of a text is reported at the furthest failure of matching a
    statement there, on its line and with what is ahead of it. -/
def ReportsAt (l : Language α) (before after : List Char) (m : Mismatch) : Prop :=
  ∃ passed ahead, after = passed ++ ahead ∧
    Recognition.IsFurthest l.grammar l.lexicon.caseSensitive (.element l.grammar.statement)
      before passed ahead (1 + Text.newlines before) ∧
    m.offset = Text.byteLength (before ++ passed) ∧
    m.line = 1 + Text.newlines (before ++ passed) ∧ m.Shows ahead

/-- What a region says of a mismatch reports it so. -/
theorem Tells.reportsAt {l : Language α} {before content after : List Char} {m : Mismatch}
    (h : l.Tells before content after (.mismatch m)) :
    l.ReportsAt before (content ++ after) m := by
  obtain ⟨_, _, passed, ahead, htext, hfurthest, hoffset, hline, hnearby⟩ := h
  obtain ⟨passed', ahead', htext', hisFurthest, hfurthest'⟩ :=
    Recognition.recognizeAt_furthest l.grammar l.lexicon.caseSensitive l.grammar.statement before
      (content ++ after) (1 + Text.newlines before)
  -- both pass as many bytes of the one text, so they pass the same characters
  have hbytes : Text.byteLength passed = Text.byteLength passed' := by
    have hsame := hoffset.symm.trans (hfurthest.trans hfurthest')
    rw [Text.byteLength_append, Text.byteLength_append] at hsame
    omega
  have hlength : passed.length = passed'.length := by
    rw [← Position.charactersWithin_append passed ahead,
      ← Position.charactersWithin_append passed' ahead', hbytes, ← htext, ← htext']
  obtain ⟨hpassed, hahead⟩ := List.append_inj (htext.symm.trans htext') hlength
  rw [← hpassed, ← hahead] at hisFurthest
  exact ⟨passed, ahead, htext, hisFurthest, hoffset, hline, Mismatch.shows_nearbyWord? hnearby⟩

/-- The furthest failure of a match is the greatest offset at which a leaf is tried in vain
    outside of every lookahead, or that where the match began.  This is so for every element at a
    character boundary and for every rule there, whether it matches or not, and every mismatch
    among the events of a text is reported at that place. -/
theorem reportsAt_furthest (l : Language α) :
    (∀ (e : Element) (before after : List Char) (line : Nat),
      ∃ passed ahead, after = passed ++ ahead ∧
        Recognition.IsFurthest l.grammar l.lexicon.caseSensitive (.element e) before passed ahead
          line ∧
        (l.grammar.recognizeAt l.lexicon.caseSensitive e (before ++ after)
          (Text.byteLength before) line).furthest = Text.byteLength (before ++ passed)) ∧
    (∀ (name : String) (id : Nat) (before after : List Char),
      ∃ passed ahead, after = passed ++ ahead ∧
        Recognition.IsFurthest l.grammar l.lexicon.caseSensitive (.element (.rule name id)) before
          passed ahead (1 + Text.newlines before) ∧
        (l.grammar.recognizeRuleAt l.lexicon.caseSensitive id (before ++ after)
          (Text.byteLength before)).furthest = Text.byteLength (before ++ passed)) ∧
    ∀ text : List Char, ∃ (regions : List Region) (ending : List Char),
      l.events text = regions.map Region.event ∧
      text = regions.flatMap Region.text ++ ending ∧ Text.IsEnding ending ∧
      ∀ front r rest, regions = front ++ r :: rest →
        l.Accounts (front.flatMap Region.text) r (rest.flatMap Region.text ++ ending) ∧
        ∀ m, r.event = .mismatch m →
          l.ReportsAt (front.flatMap Region.text ++ r.gap)
            (r.content ++ (rest.flatMap Region.text ++ ending)) m := by
  refine ⟨?_, ?_, ?_⟩
  · intro e before after line
    exact Recognition.recognizeAt_furthest l.grammar l.lexicon.caseSensitive e before after line
  · intro name id before after
    exact Recognition.recognizeRuleAt_furthest l.grammar l.lexicon.caseSensitive name id before
      after
  · intro text
    obtain ⟨regions, ending, hevents, _, _, htext, hending, hregions⟩ :=
      l.exists_regions_events text
    refine ⟨regions, ending, hevents, htext, hending, ?_⟩
    intro front r rest hsplit
    have haccounts := hregions front r rest hsplit
    refine ⟨haccounts, ?_⟩
    intro m hm
    have htells := haccounts.event
    rw [hm] at htells
    exact htells.reportsAt

end Language
end Compositing
