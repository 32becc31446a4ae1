import Compositing.Matcher
import Compositing.Proofs.Recognition.Agreement

/-! # Rewinding

    A matcher has one cursor, one buffer of tokens and two counters, and an
    attempt moves all of them.  Recognition has none of this: it hands progress
    on, and drops it where something fails.

    The two agree because a matcher can be taken back.  An attempt only adds to
    the buffer, and leaves the counters as it found them, so a reset brings back
    everything that was there at the mark but for the furthest failure.  Inside
    a lookahead not even that has changed.  With this one fact each function of
    the matcher follows the function of recognition that has its name, and what
    a matcher was asked before is not seen in its answers. -/

namespace Compositing

/-- A cursor that is sent to its own offset and line stays. -/
theorem Cursor.seek_self {text : List Char} (c : Cursor text) :
    Cursor.seek text c.offset c.line = c := by
  obtain ⟨⟨rest, offset, line⟩, passed, htext, hoffset⟩ := c
  simp only at htext hoffset
  subst htext hoffset
  simp only [seek, Cursor.offset, Cursor.line, Position.seek_append]

namespace Matcher
open Recognition (Progress Attempt)

variable {text : List Char}

/-! ## Going back -/

/-- How far the match of a matcher has come. -/
def progress (m : Matcher text) : Progress :=
  ⟨m.cursor.position, m.tokens.toList.reverse, m.furthest⟩

/-- What every attempt that begins in `m` and ends in `m'` keeps. -/
structure Leads (m m' : Matcher text) : Prop where
  tokens : m.tokens.toList <+: m'.tokens.toList
  lookaheads : m'.lookaheads = m.lookaheads
  depth : m'.depth = m.depth
  /-- Inside a lookahead no failure is noted. -/
  furthest : 0 < m.lookaheads → m'.furthest = m.furthest

namespace Leads
variable {m m' m'' : Matcher text}

theorem refl (m : Matcher text) : m.Leads m := ⟨List.prefix_refl _, rfl, rfl, fun _ => rfl⟩

theorem trans (h : m.Leads m') (h' : m'.Leads m'') : m.Leads m'' where
  tokens := h.tokens.trans h'.tokens
  lookaheads := h'.lookaheads.trans h.lookaheads
  depth := h'.depth.trans h.depth
  furthest := by
    intro hlookaheads
    rw [h'.furthest (by rw [h.lookaheads]; exact hlookaheads), h.furthest hlookaheads]

/-- Tokens are emitted after an attempt where they were before it. -/
theorem emitting (h : m.Leads m') : m'.emitting = m.emitting := by
  unfold Matcher.emitting
  rw [h.lookaheads]

/-- It does not matter where the cursor stands. -/
theorem moved {c c' : Cursor text} (h : Leads { m with cursor := c } m') :
    m.Leads { m' with cursor := c' } :=
  ⟨h.tokens, h.lookaheads, h.depth, h.furthest⟩

/-- Going back to where an attempt began undoes all of it but the furthest failure. -/
theorem reset (h : m.Leads m') : m'.reset m.mark = { m with furthest := m'.furthest } := by
  obtain ⟨hkept, hlookaheads, hdepth, _⟩ := h
  have htokens : m'.tokens.take m.tokens.size = m.tokens := by
    obtain ⟨more, hmore⟩ := hkept
    apply Array.toList_inj.mp
    simp [← hmore]
  simp only [Matcher.reset, Matcher.mark, Cursor.seek_self, htokens, hlookaheads, hdepth]

/-- A matcher is known by how far its match has come and by what an attempt keeps. -/
theorem ext (h : m.Leads m') (h' : m.Leads m'') (hprogress : m'.progress = m''.progress) :
    m' = m'' := by
  have hcursor : m'.cursor.position = m''.cursor.position := congrArg Progress.position hprogress
  have htokens : m'.tokens.toList.reverse = m''.tokens.toList.reverse :=
    congrArg Progress.tokens hprogress
  have hfurthest : m'.furthest = m''.furthest := congrArg Progress.furthest hprogress
  have hlookaheads := h.lookaheads.trans h'.lookaheads.symm
  have hdepth := h.depth.trans h'.depth.symm
  obtain ⟨⟨position, _⟩, tokens, furthest, lookaheads, depth⟩ := m'
  obtain ⟨⟨position', _⟩, tokens', furthest', lookaheads', depth'⟩ := m''
  simp only [List.reverse_inj, Array.toList_inj] at hcursor htokens hfurthest hlookaheads hdepth
  subst hcursor htokens hfurthest hlookaheads hdepth
  rfl

end Leads

/-- An attempt of `m` ends as one of recognition does.  Where it fails the matcher may be left
    anywhere behind. -/
def Ends (m : Matcher text) (result : Bool × Matcher text) : Attempt → Prop
  | .matched p => ∃ m', result = (true, m') ∧ m.Leads m' ∧ m'.progress = p
  | .failed furthest => ∃ m', result = (false, m') ∧ m.Leads m' ∧ m'.furthest = furthest

/-- An attempt of `m` follows one of recognition: it ends as the other does, and where it fails
    it has been undone. -/
def Follows (m : Matcher text) (result : Bool × Matcher text) : Attempt → Prop
  | .matched p => ∃ m', result = (true, m') ∧ m.Leads m' ∧ m'.progress = p
  | .failed furthest => result = (false, { m with furthest }) ∧ m.Leads { m with furthest }

/-- Wherever `depth` rules are under way, the attempts of a matcher follow those of recognition,
    which are told whether tokens are emitted. -/
def FollowsAt (text : List Char) (depth : Nat) (attempt : Matcher text → Bool × Matcher text)
    (attempt' : Bool → Progress → Attempt) : Prop :=
  ∀ m : Matcher text, m.depth = depth → m.Follows (attempt m) (attempt' m.emitting m.progress)

section Following
variable {m m' : Matcher text} {result : Bool × Matcher text} {attempt : Attempt}

/-- An attempt that ends as one of recognition follows it once it is settled. -/
theorem Ends.settle (h : m.Ends result attempt) : m.Follows (m.settle result) attempt := by
  cases attempt with
  | matched p =>
    obtain ⟨m', rfl, hleads, hprogress⟩ := h
    exact ⟨m', rfl, hleads, hprogress⟩
  | failed furthest =>
    obtain ⟨m', rfl, hleads, rfl⟩ := h
    refine ⟨congrArg (Prod.mk false) hleads.reset, ?_⟩
    exact ⟨List.prefix_refl _, rfl, rfl, hleads.furthest⟩

/-- An attempt of the matcher matches only if that of recognition does. -/
theorem Follows.of_true (h : m.Follows (true, m') attempt) :
    m.Leads m' ∧ attempt = .matched m'.progress := by
  cases attempt with
  | matched p =>
    obtain ⟨m'', hm'', hleads, hprogress⟩ := h
    cases hm''
    exact ⟨hleads, by rw [hprogress]⟩
  | failed furthest => cases h.1

theorem Follows.ends (h : m.Follows result attempt) : m.Ends result attempt := by
  cases attempt with
  | matched p => exact h
  | failed furthest => exact ⟨_, h.1, h.2, rfl⟩

/-- An attempt after a failure that has been undone follows as if it were the first. -/
theorem Follows.after_failed {furthest : Nat} (hfailed : m.Leads { m with furthest })
    (h : Follows { m with furthest } result attempt) : m.Follows result attempt := by
  cases attempt with
  | matched p =>
    obtain ⟨m', hresult, hleads, hprogress⟩ := h
    exact ⟨m', hresult, hfailed.trans hleads, hprogress⟩
  | failed furthest' => exact ⟨h.1, hfailed.trans h.2⟩

/-- What follows an attempt from a matcher on is known. -/
theorem Follows.unique {result' : Bool × Matcher text} (h : m.Follows result attempt)
    (h' : m.Follows result' attempt) : result = result' := by
  cases attempt with
  | matched p =>
    obtain ⟨m₁, rfl, hleads, hprogress⟩ := h
    obtain ⟨m₂, rfl, hleads', hprogress'⟩ := h'
    rw [hleads.ext hleads' (hprogress.trans hprogress'.symm)]
  | failed furthest => exact h.1.trans h'.1.symm

end Following

/-! ## Leaves -/

theorem noteFailure_furthest (m : Matcher text) (offset : Nat) :
    (m.noteFailure offset).furthest =
      if m.emitting then max m.furthest offset else m.furthest := by
  unfold noteFailure
  by_cases hemitting : m.emitting = true
  · by_cases hless : m.furthest < offset
    · simp [hemitting, hless, Nat.max_eq_right (Nat.le_of_lt hless)]
    · simp [hemitting, hless, Nat.max_eq_left (Nat.le_of_not_lt hless)]
  · simp [hemitting]

theorem leads_noteFailure (m : Matcher text) (offset : Nat) : m.Leads (m.noteFailure offset) := by
  unfold noteFailure
  split
  · rename_i hnoted
    have houtside : m.lookaheads = 0 := by
      simp only [Bool.and_eq_true, emitting, beq_iff_eq] at hnoted
      exact hnoted.1
    exact ⟨List.prefix_refl _, rfl, rfl, fun hinside => by omega⟩
  · exact .refl m

theorem emit_tokens (m : Matcher text) (kind : Token.Kind) :
    (m.emit kind).tokens.toList.reverse =
      if m.emitting then ⟨kind, m.cursor.offset, m.cursor.line⟩ :: m.tokens.toList.reverse
      else m.tokens.toList.reverse := by
  unfold emit
  split <;> simp

theorem leads_emit (m : Matcher text) (kind : Token.Kind) : m.Leads (m.emit kind) := by
  unfold emit
  split
  · refine ⟨?_, rfl, rfl, fun _ => rfl⟩
    simp
  · exact .refl m

theorem emit_furthest (m : Matcher text) (kind : Token.Kind) :
    (m.emit kind).furthest = m.furthest := by
  unfold emit
  split <;> rfl

/-- A leaf ends as it does in recognition, though it stays behind the white space. -/
theorem leaf_ends (scan : List Char → Option (Nat × Option Token.Kind)) (m : Matcher text) :
    m.Ends (m.leaf scan) (Recognition.leaf m.emitting scan m.progress) := by
  unfold leaf Recognition.leaf
  have hrest : m.cursor.skipTrivia.rest = m.progress.position.skipTrivia.rest := rfl
  simp only [hrest]
  cases hscan : scan m.progress.position.skipTrivia.rest with
  | none => exact ⟨_, rfl, (leads_noteFailure _ _).moved, noteFailure_furthest _ _⟩
  | some result =>
    obtain ⟨length, kind?⟩ := result
    cases kind? with
    | none => exact ⟨_, rfl, (Leads.refl m).moved, rfl⟩
    | some kind =>
      refine ⟨_, rfl, (leads_emit _ kind).moved, ?_⟩
      simp only [progress, emit_tokens, emit_furthest]
      rfl

/-! ## Repetitions -/

/-- The rounds of a repetition follow those of recognition. -/
theorem repeated_follows {depth : Nat} {attempt : Matcher text → Bool × Matcher text}
    {attempt' : Bool → Progress → Attempt} (hattempt : FollowsAt text depth attempt attempt')
    (room : List Char) (m : Matcher text) (hdepth : m.depth = depth) :
    m.Follows (true, repeated attempt room m)
      (.matched (Recognition.iterate (attempt' m.emitting) room m.progress)) := by
  have hfirst := hattempt m hdepth
  unfold repeated Recognition.iterate
  cases hround : attempt' m.emitting m.progress with
  | failed furthest =>
    rw [hround] at hfirst
    obtain ⟨hm', hleads⟩ := hfirst
    exact ⟨_, by simp only [hm'], hleads, rfl⟩
  | matched p =>
    rw [hround] at hfirst
    obtain ⟨m', hm', hleads, rfl⟩ := hfirst
    have hoffset : (m'.progress.position.offset = m.progress.position.offset) =
      (m'.cursor.offset = m.cursor.offset) := rfl
    simp only [hm', hoffset]
    by_cases hrests : m'.cursor.offset = m.cursor.offset
    · simp only [hrests, if_true]
      exact ⟨m', rfl, hleads, rfl⟩
    · simp only [hrests, if_false]
      cases room with
      | nil => exact ⟨m', rfl, hleads, rfl⟩
      | cons c room =>
        obtain ⟨m'', hm'', hleads', hprogress⟩ :=
          repeated_follows hattempt room m' (hleads.depth.trans hdepth)
        rw [hleads.emitting] at hprogress
        exact ⟨m'', hm'', hleads.trans hleads', hprogress⟩

/-! ## Elements -/

/-- What is called for a rule inside `depth` others follows what recognition calls for it. -/
def CallFollows (text : List Char) (depth : Nat) (call : Nat → Matcher text → Bool × Matcher text)
    (call' : Bool → Nat → Progress → Attempt) : Prop :=
  ∀ id, FollowsAt text depth (call id) fun emitting => call' emitting id

section Elements
variable {caseSensitive : Bool} {depth : Nat} {call : Nat → Matcher text → Bool × Matcher text}
  {call' : Bool → Nat → Progress → Attempt}

/-- Nothing is left of the body of a lookahead. -/
theorem reset_lookahead {m m' : Matcher text}
    (h : Leads { m with lookaheads := m.lookaheads + 1 } m') :
    { m' with lookaheads := m'.lookaheads - 1 }.reset m.mark = m := by
  have hlookaheads : m'.lookaheads - 1 = m.lookaheads := by
    have := h.lookaheads
    simp only at this
    omega
  have hfurthest : m'.furthest = m.furthest := h.furthest (Nat.succ_pos _)
  have hleads : m.Leads { m' with lookaheads := m'.lookaheads - 1 } :=
    ⟨h.tokens, hlookaheads, h.depth, fun _ => hfurthest⟩
  rw [hleads.reset]
  simp only [hfurthest]

mutual

/-- An attempt at an element. -/
theorem element_follows (hcall : CallFollows text depth call call') (e : Element) :
    FollowsAt text depth (element caseSensitive call e) fun emitting =>
      Recognition.element caseSensitive call' emitting e := by
  intro m hdepth
  show m.Follows _ (Recognition.element caseSensitive call' m.emitting e m.progress)
  -- only a leaf is left where it failed; for the other elements the reset at the end of the
  -- attempt finds them undone already
  unfold element
  apply Ends.settle
  cases e with
  | terminal literal emits token => exact leaf_ends _ m
  | number name => exact leaf_ends _ m
  | label name => exact leaf_ends _ m
  | run chars negated => exact leaf_ends _ m
  | rule name id => exact (hcall id m hdepth).ends
  | repeated body =>
    exact (repeated_follows (element_follows hcall body) m.cursor.rest m hdepth).ends
  | optional body =>
    have hbody : m.Follows (element caseSensitive call body m)
        (Recognition.element caseSensitive call' m.emitting body m.progress) :=
      element_follows hcall body m hdepth
    unfold Recognition.element
    cases hattempt : Recognition.element caseSensitive call' m.emitting body m.progress with
    | matched p =>
      rw [hattempt] at hbody
      obtain ⟨m', hm', hleads, hprogress⟩ := hbody
      exact ⟨m', by simp only [hm'], hleads, hprogress⟩
    | failed furthest =>
      rw [hattempt] at hbody
      obtain ⟨hm', hleads⟩ := hbody
      exact ⟨_, by simp only [hm'], hleads, rfl⟩
  | notAhead body =>
    -- the body is tried inside a lookahead, where it emits nothing and notes no failure
    have hbody : Follows _ (element caseSensitive call body _)
        (Recognition.element caseSensitive call' false body m.progress) :=
      element_follows hcall body { m with lookaheads := m.lookaheads + 1 } hdepth
    unfold Recognition.element
    cases hattempt : Recognition.element caseSensitive call' false body m.progress with
    | matched p =>
      rw [hattempt] at hbody
      obtain ⟨m', hm', hleads, _⟩ := hbody
      simp only [hm', reset_lookahead hleads]
      exact ⟨m, rfl, .refl m, rfl⟩
    | failed furthest =>
      rw [hattempt] at hbody
      obtain ⟨hm', hleads⟩ := hbody
      simp only [hm', reset_lookahead hleads]
      exact ⟨m, rfl, .refl m, rfl⟩
  | choice sequences => exact (alternatives_follows hcall sequences m hdepth).ends

/-- An attempt at a sequence, of which a part may be done. -/
theorem sequence_follows (hcall : CallFollows text depth call call') (elements : List Element)
    {begun m : Matcher text} (hbegun : begun.Leads m) (hdepth : m.depth = depth) :
    begun.Follows (sequence caseSensitive call begun.mark elements m)
      (Recognition.sequence caseSensitive call' m.emitting elements m.progress) := by
  cases elements with
  | nil => exact ⟨m, rfl, hbegun, rfl⟩
  | cons first rest =>
    have hfirst : m.Follows (element caseSensitive call first m)
        (Recognition.element caseSensitive call' m.emitting first m.progress) :=
      element_follows hcall first m hdepth
    unfold sequence Recognition.sequence
    cases hattempt : Recognition.element caseSensitive call' m.emitting first m.progress with
    | matched p =>
      rw [hattempt] at hfirst
      obtain ⟨m', hm', hleads, rfl⟩ := hfirst
      simp only [hm', ← hleads.emitting]
      exact sequence_follows hcall rest (hbegun.trans hleads) (hleads.depth.trans hdepth)
    | failed furthest =>
      rw [hattempt] at hfirst
      obtain ⟨hm', hleads⟩ := hfirst
      -- the elements before it matched and are undone with it
      simp only [hm', (hbegun.trans hleads).reset]
      exact ⟨rfl, List.prefix_refl _, rfl, rfl, (hbegun.trans hleads).furthest⟩

/-- An attempt at alternatives. -/
theorem alternatives_follows (hcall : CallFollows text depth call call')
    (sequences : List (List Element)) :
    FollowsAt text depth (alternatives caseSensitive call sequences) fun emitting =>
      Recognition.alternatives caseSensitive call' emitting sequences := by
  intro m hdepth
  show m.Follows _ (Recognition.alternatives caseSensitive call' m.emitting sequences m.progress)
  cases sequences with
  | nil => exact ⟨rfl, .refl m⟩
  | cons first rest =>
    have hfirst := sequence_follows hcall first (.refl m) hdepth
    unfold alternatives Recognition.alternatives
    cases hattempt : Recognition.sequence caseSensitive call' m.emitting first m.progress with
    | matched p =>
      rw [hattempt] at hfirst
      obtain ⟨m', hm', hleads, hprogress⟩ := hfirst
      exact ⟨m', by simp only [hm'], hleads, hprogress⟩
    | failed furthest =>
      rw [hattempt] at hfirst
      obtain ⟨hm', hleads⟩ := hfirst
      -- the first sequence has been undone, so the others begin where it began
      simp only [hm']
      exact (alternatives_follows hcall rest { m with furthest } hdepth).after_failed hleads

end
end Elements

/-! ## Rules -/

/-- Nothing shows of the rule that was under way. -/
theorem Follows.leave {m : Matcher text} {result : Bool × Matcher text} {attempt : Attempt}
    (h : Follows { m with depth := m.depth + 1 } result attempt) :
    m.Follows (result.1, { result.2 with depth := result.2.depth - 1 }) attempt := by
  cases attempt with
  | matched p =>
    obtain ⟨m', rfl, hleads, rfl⟩ := h
    have hdepth : m'.depth - 1 = m.depth := by
      rw [hleads.depth]
      rfl
    exact ⟨_, rfl, ⟨hleads.tokens, hleads.lookaheads, hdepth, hleads.furthest⟩, rfl⟩
  | failed furthest =>
    obtain ⟨rfl, hleads⟩ := h
    exact ⟨rfl, hleads.tokens, rfl, rfl, hleads.furthest⟩

/-- A rule follows that of recognition if those that it calls do. -/
theorem tryRule_follows {g : Grammar} {caseSensitive : Bool}
    {call : Nat → Matcher text → Bool × Matcher text} {m : Matcher text}
    (hcall : m.depth < Recognition.maxRuleDepth → CallFollows text (m.depth + 1) call
      (Recognition.rule g caseSensitive (Recognition.maxRuleDepth - (m.depth + 1))))
    (id : Nat) :
    m.Follows (tryRule g caseSensitive call id m)
      (Recognition.rule g caseSensitive (Recognition.maxRuleDepth - m.depth) m.emitting id
        m.progress) := by
  -- the rules that may still come under way are what is left of the bound, at any depth
  unfold tryRule
  by_cases hdeep : Recognition.maxRuleDepth ≤ m.depth
  · have hdepth : Recognition.maxRuleDepth - m.depth = 0 := by omega
    rw [if_pos hdeep, hdepth]
    exact ⟨rfl, .refl m⟩
  · have hdepth : Recognition.maxRuleDepth - m.depth =
        Recognition.maxRuleDepth - (m.depth + 1) + 1 := by omega
    rw [if_neg hdeep, hdepth]
    unfold Recognition.rule
    cases hrule : g.rule? id with
    | none => exact ⟨rfl, .refl m⟩
    | some r => exact (alternatives_follows (hcall (by omega)) r.alternatives _ rfl).leave

/-- With room for the rules that may still come under way, a rule follows that of recognition. -/
theorem ruleWithin_follows (g : Grammar) (caseSensitive : Bool) (room depth : Nat)
    (hroom : Recognition.maxRuleDepth < room + depth) :
    CallFollows text depth (ruleWithin g caseSensitive room)
      (Recognition.rule g caseSensitive (Recognition.maxRuleDepth - depth)) := by
  induction room generalizing depth with
  | zero =>
    intro id m _
    have hdepth : Recognition.maxRuleDepth - depth = 0 := by omega
    rw [hdepth]
    exact ⟨rfl, .refl m⟩
  | succ room ih =>
    intro id m hm
    subst hm
    exact tryRule_follows (fun _ => ih (m.depth + 1) (by omega)) id

/-- A rule follows that of recognition, however many are under way. -/
theorem rule_follows (g : Grammar) (caseSensitive : Bool) (depth : Nat) :
    CallFollows text depth (rule g caseSensitive)
      (Recognition.rule g caseSensitive (Recognition.maxRuleDepth - depth)) :=
  ruleWithin_follows g caseSensitive (Recognition.maxRuleDepth + 1) depth (by omega)

/-! ## The bounds do not show

    A rule and a repetition are given room, so that they end.  They never come
    to the end of it: the equations in which no room is left hold of them. -/

/-- Trying a rule tries, for the rules that it refers to, just that. -/
theorem rule_eq (g : Grammar) (caseSensitive : Bool) (id : Nat) (m : Matcher text) :
    m.rule g caseSensitive id = m.tryRule g caseSensitive (rule g caseSensitive) id :=
  (rule_follows g caseSensitive m.depth id m rfl).unique
    (tryRule_follows (fun _ => rule_follows g caseSensitive (m.depth + 1)) id)

/-- All rooms in which the characters ahead fit are the same to a repetition. -/
theorem repeated_room {depth : Nat} {attempt : Matcher text → Bool × Matcher text}
    {attempt' : Bool → Progress → Attempt} (hattempt : FollowsAt text depth attempt attempt')
    (hforward : ∀ emitting, Recognition.LeadsForward (attempt' emitting)) {m : Matcher text}
    (hdepth : m.depth = depth) {room room' : List Char}
    (hroom : m.cursor.rest.length ≤ room.length)
    (hroom' : m.cursor.rest.length ≤ room'.length) :
    repeated attempt room m = repeated attempt room' m := by
  obtain ⟨_, hrounds, _⟩ :=
    Recognition.exists_rounds (hforward m.emitting) room m.progress hroom
  obtain ⟨_, hrounds', _⟩ :=
    Recognition.exists_rounds (hforward m.emitting) room' m.progress hroom'
  have hfollows := repeated_follows hattempt room m hdepth
  rw [(hrounds'.unique hrounds).2] at hfollows
  exact congrArg Prod.snd (hfollows.unique (repeated_follows hattempt room' m hdepth))

/-- A repetition tries its body, and is over if this fails or does not advance. -/
theorem repeated_eq (g : Grammar) (caseSensitive : Bool) (body : Element) (m : Matcher text) :
    repeated (element caseSensitive (rule g caseSensitive) body) m.cursor.rest m =
      match element caseSensitive (rule g caseSensitive) body m with
      | (false, m') => m'
      | (true, m') =>
        if m'.cursor.offset = m.cursor.offset then m'
        else repeated (element caseSensitive (rule g caseSensitive) body) m'.cursor.rest m' := by
  let room := Recognition.maxRuleDepth - m.depth
  let attempt' emitting :=
    Recognition.element caseSensitive (Recognition.rule g caseSensitive room) emitting body
  have hattempt : FollowsAt text m.depth
      (element caseSensitive (rule g caseSensitive) body) attempt' :=
    element_follows (rule_follows g caseSensitive m.depth) body
  have hmeans : Recognition.CallMeans g caseSensitive (Recognition.maxRuleDepth - room)
      (Recognition.rule g caseSensitive room) := Recognition.rule_means room _ (by omega)
  have hforward emitting : Recognition.LeadsForward (attempt' emitting) :=
    Recognition.leadsForward_of_means (Recognition.element_means hmeans body emitting)
  rw [repeated]
  cases hround : element caseSensitive (rule g caseSensitive) body m with
  | mk matched m' =>
  cases matched with
  | false => rfl
  | true =>
    have hfirst := hattempt m rfl
    rw [hround] at hfirst
    obtain ⟨hleads, hmatched⟩ := hfirst.of_true
    by_cases hoffset : m'.cursor.offset = m.cursor.offset
    · simp only [hoffset, if_true]
    · -- a round that advances uses up a character, so there is room for those after it
      simp only [hoffset, if_false]
      have hless : m'.cursor.rest.length < m.cursor.rest.length :=
        (hforward m.emitting _ _ hmatched).length_lt hoffset
      cases hrest : m.cursor.rest with
      | nil =>
        rw [hrest, List.length_nil] at hless
        omega
      | cons c room =>
        rw [hrest, List.length_cons] at hless
        exact repeated_room hattempt hforward hleads.depth (by omega) (Nat.le_refl _)

/-! ## Calls -/

/-- What a matcher answers does not depend on the matcher. -/
theorem run_eq {attempt : Matcher text → Bool × Matcher text}
    {attempt' : Bool → Progress → Attempt} (hattempt : FollowsAt text 0 attempt attempt')
    (offset line : Nat) (m : Matcher text) :
    (m.run offset line attempt).1 =
      Recognition.ofAttempt (attempt' true) (Position.seek text offset line) offset := by
  have hfollows : (m.started offset line).Follows (attempt (m.started offset line))
      (attempt' true ⟨Position.seek text offset line, [], offset⟩) :=
    hattempt (m.started offset line) rfl
  unfold run Recognition.ofAttempt
  cases hend : attempt' true ⟨Position.seek text offset line, [], offset⟩ with
  | matched p =>
    rw [hend] at hfollows
    obtain ⟨m', hm', _, rfl⟩ := hfollows
    simp [hm', progress]
  | failed furthest =>
    rw [hend] at hfollows
    simp [hfollows.1, Cursor.seek]

/-- A matcher answers for an element as recognition does, whatever it was asked before. -/
theorem matchElementAt_eq (g : Grammar) (caseSensitive : Bool) (e : Element) (offset line : Nat)
    (m : Matcher text) :
    (m.matchElementAt g caseSensitive e offset line).1 =
      g.recognizeAt caseSensitive e text offset line :=
  run_eq (element_follows (rule_follows g caseSensitive 0) e) offset line m

/-- A matcher answers for a rule as recognition does, whatever it was asked before. -/
theorem matchRuleAt_eq (g : Grammar) (caseSensitive : Bool) (id offset : Nat)
    (m : Matcher text) :
    (m.matchRuleAt g caseSensitive id offset).1 =
      g.recognizeRuleAt caseSensitive id text offset := by
  let place := (Position.start text).advanceBytes offset
  have hplace : Position.seek text place.offset place.line = place := by
    have hcursor := Cursor.seek_self ⟨place, (Position.IsIn.start text).advance _⟩
    exact congrArg Cursor.position hcursor
  have hrun := run_eq (rule_follows g caseSensitive 0 id) place.offset place.line m
  rw [hplace] at hrun
  exact hrun

/-- After any calls, matching an element at a character boundary, or a rule there, reports the
    one outcome that the element, or a reference to the rule, has at that place with no rule
    under way. -/
theorem matches_peg (g : Grammar) (caseSensitive : Bool) (before after : List Char) (line : Nat)
    (calls : List Call) :
    let m := ((Matcher.new (before ++ after)).answerAll g caseSensitive calls).2
    (∀ e, ∃ outcome,
      (∀ other, Peg g caseSensitive 0 (.element e) ⟨after, Text.byteLength before, line⟩ other ↔
        other = outcome) ∧
      Recognition.Reports (m.matchElementAt g caseSensitive e (Text.byteLength before) line).1
        ⟨after, Text.byteLength before, line⟩ outcome) ∧
    (∀ name id, ∃ outcome,
      (∀ other, Peg g caseSensitive 0 (.element (.rule name id))
          ⟨after, Text.byteLength before, 1 + Text.newlines before⟩ other ↔ other = outcome) ∧
      Recognition.Reports (m.matchRuleAt g caseSensitive id (Text.byteLength before)).1
        ⟨after, Text.byteLength before, 1 + Text.newlines before⟩ outcome) := by
  intro m
  constructor
  · intro e
    rw [matchElementAt_eq]
    exact Recognition.exists_unique_recognizeAt g caseSensitive e before after line
  · intro name id
    rw [matchRuleAt_eq]
    exact Recognition.exists_unique_recognizeRuleAt g caseSensitive name id before after

end Matcher
end Compositing
