import Compositing.Proofs.Recognition.Peg

/-! # Changed texts

    A match reads characters in its leaves and nowhere else; beyond that it
    compares offsets.  So where every leaf scans a changed text as it scans the
    text, a match goes alike in both: it fails in both or ends at the same place
    in both, with the same tokens, each place and each token changed.

    What a change must leave alone is said of texts only.  One induction over
    the elements does for all changes. -/

namespace Compositing

/-! ## The leaves of elements -/

namespace Element

mutual

/-- The leaves of an element, those in lookaheads included. -/
def leaves : Element → List Element
  | .rule _ _ => []
  | .repeated body | .optional body | .notAhead body => leaves body
  | .choice sequences => alternativesLeaves sequences
  | .terminal text emits token => [.terminal text emits token]
  | .number name => [.number name]
  | .label name => [.label name]
  | .run chars negated => [.run chars negated]

/-- The leaves of the elements of a sequence. -/
def sequenceLeaves : List Element → List Element
  | [] => []
  | first :: rest => leaves first ++ sequenceLeaves rest

/-- The leaves of alternatives. -/
def alternativesLeaves : List (List Element) → List Element
  | [] => []
  | first :: rest => sequenceLeaves first ++ alternativesLeaves rest

end

end Element

namespace Grammar

/-- The leaves of all rules. -/
def leaves (g : Grammar) : List Element :=
  g.rules.flatMap fun r => Element.alternativesLeaves r.alternatives

theorem leaves_of_rule? {g : Grammar} {id : Nat} {r : Rule} (h : g.rule? id = some r) {e : Element}
    (he : e ∈ Element.alternativesLeaves r.alternatives) : e ∈ g.leaves :=
  List.mem_flatMap.mpr ⟨r, List.mem_of_getElem? h, he⟩

/-- What a script is a sequence of has leaves of the start rule, or refers to it. -/
theorem leaves_of_statement {g : Grammar} {e : Element} (he : e ∈ g.statement.leaves) :
    e ∈ g.leaves := by
  unfold statement at he
  split at he
  · rename_i hrule
    refine leaves_of_rule? hrule ?_
    simpa [Element.alternativesLeaves, Element.sequenceLeaves, Element.leaves] using he
  · cases he
  · cases he

end Grammar

namespace Recognition

/-! ## Changes -/

/-- A change of texts, and with them of values, offsets and lines. -/
structure Change where
  text : List Char → List Char
  kind : Token.Kind → Token.Kind
  offset : Nat → Nat
  line : Nat → Nat

namespace Change
variable (c : Change)

/-- The place in the changed text. -/
def place (p : Position) : Position := ⟨c.text p.rest, c.offset p.offset, c.line p.line⟩

/-- The token of the changed text. -/
def token (t : Token) : Token := ⟨c.kind t.kind, c.offset t.offset, c.line t.line⟩

/-- The progress of a match of the changed text. -/
def progress (p : Progress) : Progress :=
  ⟨c.place p.position, p.tokens.map c.token, c.offset p.furthest⟩

/-- The end of an attempt at the changed text. -/
def attempt : Attempt → Attempt
  | .matched p => .matched (c.progress p)
  | .failed furthest => .failed (c.offset furthest)

/-- The outcome of matching the changed text. -/
def recognition (r : Recognition) : Recognition :=
  ⟨r.matched, c.place r.position, r.tokens.map c.token, c.offset r.furthest⟩

@[simp] theorem recognition_matched (r : Recognition) : (c.recognition r).matched = r.matched :=
  rfl

@[simp] theorem recognition_position (r : Recognition) :
    (c.recognition r).position = c.place r.position := rfl

@[simp] theorem recognition_furthest (r : Recognition) :
    (c.recognition r).furthest = c.offset r.furthest := rfl

/-- The change leaves the number of characters, what white space and comments take, and the order
    of offsets as they are. -/
structure IsFaithful : Prop where
  length : ∀ text, (c.text text).length = text.length
  offset : ∀ m n, c.offset m = c.offset n ↔ m = n
  max : ∀ m n, max (c.offset m) (c.offset n) = c.offset (max m n)
  advance : ∀ n p, (c.place p).advance n = c.place (p.advance n)
  skipTrivia : ∀ p, (c.place p).skipTrivia = c.place p.skipTrivia

/-- What a leaf takes of the changed text, with the changed value. -/
def taken (result : Nat × Option Token.Kind) : Nat × Option Token.Kind :=
  (result.1, result.2.map c.kind)

/-- As much is taken of the changed text as of the text. -/
def KeepsScan (scan : List Char → Option (Nat × Option Token.Kind)) : Prop :=
  ∀ text, scan (c.text text) = (scan text).map c.taken

/-- The attempt goes alike in the changed text. -/
def Keeps (attempt : Progress → Attempt) : Prop :=
  ∀ p, attempt (c.progress p) = c.attempt (attempt p)

end Change

/-! ## Leaves and repetitions -/

section
variable {c : Change}

theorem leaf_kept (hc : c.IsFaithful) {scan : List Char → Option (Nat × Option Token.Kind)}
    (hscan : c.KeepsScan scan) (emitting : Bool) : c.Keeps (leaf emitting scan) := by
  intro p
  have hskip : (c.progress p).position.skipTrivia = c.place p.position.skipTrivia :=
    hc.skipTrivia p.position
  simp only [leaf, hskip]
  have hrest : scan (c.place p.position.skipTrivia).rest =
      (scan p.position.skipTrivia.rest).map c.taken := hscan _
  rw [hrest]
  cases scan p.position.skipTrivia.rest with
  | none =>
    -- the failure is noted at the changed place, and the further of two offsets stays the further
    cases emitting with
    | true => exact congrArg Attempt.failed (hc.max _ _)
    | false => rfl
  | some result =>
    obtain ⟨n, kind?⟩ := result
    simp only [Option.map_some, Change.taken, hc.advance]
    cases kind? with
    | none => rfl
    | some kind => cases emitting <;> rfl

/-- Rounds are counted by characters, of which the changed text has as many. -/
theorem iterate_kept (hc : c.IsFaithful) {attempt : Progress → Attempt}
    (hattempt : c.Keeps attempt) {room room' : List Char} (hroom : room'.length = room.length)
    (p : Progress) :
    iterate attempt room' (c.progress p) = c.progress (iterate attempt room p) := by
  -- a round advances in the changed text exactly if it does in the text
  have hoffset : ∀ p q : Progress,
      (c.progress q).position.offset = (c.progress p).position.offset ↔
        q.position.offset = p.position.offset :=
    fun p q => hc.offset q.position.offset p.position.offset
  -- the induction is on the rounds there is room for; the place they begin at varies
  induction room generalizing room' p with
  | nil =>
    obtain rfl : room' = [] := List.length_eq_zero_iff.mp hroom
    unfold iterate
    rw [hattempt p]
    cases attempt p with
    | failed furthest => rfl
    | matched q => simp only [Change.attempt, ite_self]
  | cons d room ih =>
    obtain ⟨d', room', rfl⟩ : ∃ d' rest, room' = d' :: rest :=
      List.exists_cons_of_length_eq_add_one hroom
    unfold iterate
    rw [hattempt p]
    cases attempt p with
    | failed furthest => rfl
    | matched q =>
      simp only [Change.attempt, hoffset p q]
      by_cases hrests : q.position.offset = p.position.offset
      · rw [if_pos hrests, if_pos hrests]
      · rw [if_neg hrests, if_neg hrests]
        exact ih (Nat.succ.inj hroom) q

end

/-! ## Elements -/

/-- Every one of the elements that has a scanner scans the changed text as the text. -/
def Change.KeepsLeaves (c : Change) (caseSensitive : Bool) (elements : List Element) : Prop :=
  ∀ e ∈ elements, ∀ scan, e.scanner? caseSensitive = some scan → c.KeepsScan scan

section
variable {c : Change} {caseSensitive : Bool} {call : Bool → Nat → Progress → Attempt}

mutual

theorem element_kept (hc : c.IsFaithful) (hcall : ∀ emitting id, c.Keeps (call emitting id))
    (e : Element) (hleaves : c.KeepsLeaves caseSensitive e.leaves) (emitting : Bool) :
    c.Keeps (element caseSensitive call emitting e) := by
  intro p
  cases e with
  | terminal text emits token | number name | label name | run chars negated =>
    unfold element
    exact leaf_kept hc (hleaves _ (List.mem_singleton.mpr rfl) _ rfl) emitting p
  | rule name id => exact hcall emitting id p
  | repeated body =>
    have hbody := element_kept hc hcall body hleaves emitting
    exact congrArg Attempt.matched (iterate_kept hc hbody (hc.length p.position.rest) p)
  | optional body =>
    unfold element
    rw [element_kept hc hcall body hleaves emitting p]
    cases element caseSensitive call emitting body p <;> rfl
  | notAhead body =>
    -- what the body takes is given back, so only whether it matches counts
    unfold element
    rw [element_kept hc hcall body hleaves false p]
    cases element caseSensitive call false body p <;> rfl
  | choice sequences =>
    unfold element
    exact alternatives_kept hc hcall sequences hleaves emitting p

theorem sequence_kept (hc : c.IsFaithful) (hcall : ∀ emitting id, c.Keeps (call emitting id))
    (elements : List Element)
    (hleaves : c.KeepsLeaves caseSensitive (Element.sequenceLeaves elements)) (emitting : Bool) :
    c.Keeps (sequence caseSensitive call emitting elements) := by
  intro p
  cases elements with
  | nil => rfl
  | cons first rest =>
    obtain ⟨hfirst, hrest⟩ := List.forall_mem_append.mp hleaves
    unfold sequence
    rw [element_kept hc hcall first hfirst emitting p]
    cases element caseSensitive call emitting first p with
    | failed furthest => rfl
    | matched q => exact sequence_kept hc hcall rest hrest emitting q

theorem alternatives_kept (hc : c.IsFaithful)
    (hcall : ∀ emitting id, c.Keeps (call emitting id)) (sequences : List (List Element))
    (hleaves : c.KeepsLeaves caseSensitive (Element.alternativesLeaves sequences))
    (emitting : Bool) : c.Keeps (alternatives caseSensitive call emitting sequences) := by
  intro p
  cases sequences with
  | nil => rfl
  | cons first rest =>
    -- an alternative that fails hands on its furthest failure, which is changed already
    obtain ⟨hfirst, hrest⟩ := List.forall_mem_append.mp hleaves
    unfold alternatives
    rw [sequence_kept hc hcall first hfirst emitting p]
    cases sequence caseSensitive call emitting first p with
    | matched q => rfl
    | failed furthest =>
      exact alternatives_kept hc hcall rest hrest emitting { p with furthest }

end
end

/-! ## Rules and outcomes -/

section
variable {c : Change} {caseSensitive : Bool}

theorem rule_kept (hc : c.IsFaithful) {g : Grammar} (hg : c.KeepsLeaves caseSensitive g.leaves)
    (depth : Nat) (emitting : Bool) (id : Nat) :
    c.Keeps (rule g caseSensitive depth emitting id) := by
  -- the induction is on the rules that may still be called inside one another
  induction depth generalizing emitting id with
  | zero => exact fun _ => rfl
  | succ depth ih =>
    intro p
    unfold rule
    cases hrule : g.rule? id with
    | none => rfl
    | some r =>
      have hleaves : c.KeepsLeaves caseSensitive (Element.alternativesLeaves r.alternatives) :=
        fun e he => hg e (Grammar.leaves_of_rule? hrule he)
      exact alternatives_kept hc ih r.alternatives hleaves emitting p

/-- An attempt that goes alike in the changed text has the changed outcome. -/
theorem ofAttempt_kept {attempt : Progress → Attempt} (h : c.Keeps attempt) (place : Position)
    (startingAt : Nat) :
    ofAttempt attempt (c.place place) (c.offset startingAt) =
      c.recognition (ofAttempt attempt place startingAt) := by
  have hbegin : attempt ⟨c.place place, [], c.offset startingAt⟩ =
      c.attempt (attempt ⟨place, [], startingAt⟩) := h ⟨place, [], startingAt⟩
  unfold ofAttempt
  rw [hbegin]
  cases attempt ⟨place, [], startingAt⟩ with
  | failed furthest => rfl
  | matched q => simp [Change.attempt, Change.progress, Change.recognition]

/-- Matching an element goes alike in the changed text. -/
theorem recognize_kept (hc : c.IsFaithful) {g : Grammar}
    (hg : c.KeepsLeaves caseSensitive g.leaves) {e : Element}
    (he : c.KeepsLeaves caseSensitive e.leaves) (place : Position) (startingAt : Nat) :
    g.recognize caseSensitive e (c.place place) (c.offset startingAt) =
      c.recognition (g.recognize caseSensitive e place startingAt) :=
  ofAttempt_kept (element_kept hc (rule_kept hc hg maxRuleDepth) e he true) place startingAt

end

end Recognition
end Compositing
