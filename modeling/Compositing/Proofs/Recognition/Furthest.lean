import Compositing.Proofs.Text.Advance
import Compositing.Recognition

/-! # The furthest failure

    Beside its end an attempt keeps an offset, the furthest at which a leaf
    failed.  It is the offset of a place that the text has, at or after the
    place where matching began, and so never falls inside a character. -/

namespace Compositing

/-- The offset of a position that a move from `p` leads to. -/
def Position.ReachesOffset (p : Position) (offset : Nat) : Prop :=
  ∃ q, p.Reaches q ∧ offset = q.offset

/-- The greater of two offsets is one of them. -/
theorem Position.ReachesOffset.max {p : Position} {m n : Nat} (hm : p.ReachesOffset m)
    (hn : p.ReachesOffset n) : p.ReachesOffset (max m n) := by
  rcases Nat.le_total m n with h | h
  · rwa [Nat.max_eq_right h]
  · rwa [Nat.max_eq_left h]

namespace Recognition

/-- A match that began at `place` has come to a place after it, and so has its furthest
    failure. -/
structure Progress.Within (place : Position) (p : Progress) : Prop where
  position : place.Reaches p.position
  furthest : place.ReachesOffset p.furthest

/-- What an attempt ends with, in a match that began at `place`. -/
def Attempt.Within (place : Position) : Attempt → Prop
  | .matched p => p.Within place
  | .failed furthest => place.ReachesOffset furthest

/-- An attempt that stays in what a match has come to. -/
def StaysWithin (place : Position) (attempt : Progress → Attempt) : Prop :=
  ∀ p : Progress, p.Within place → (attempt p).Within place

section
variable {place : Position}

theorem leaf_staysWithin (emitting : Bool)
    (scan : List Char → Option (Nat × Option Token.Kind)) :
    StaysWithin place (leaf emitting scan) := by
  intro p h
  have hhere : place.Reaches p.position.skipTrivia :=
    h.position.trans (Position.reaches_skipTrivia _)
  unfold leaf
  cases hscan : scan p.position.skipTrivia.rest with
  | none =>
    simp only [hscan]
    cases emitting with
    | false => exact h.furthest
    | true => exact h.furthest.max ⟨_, hhere, rfl⟩
  | some result =>
    obtain ⟨n, kind?⟩ := result
    simp only [hscan]
    exact ⟨hhere.trans ⟨n, rfl⟩, h.furthest⟩

theorem iterate_within {attempt : Progress → Attempt} (hattempt : StaysWithin place attempt)
    (room : List Char) {p : Progress} (h : p.Within place) :
    (iterate attempt room p).Within place := by
  induction room generalizing p with
  | nil =>
    have hround := hattempt p h
    unfold iterate
    cases hend : attempt p with
    | failed furthest =>
      rw [hend] at hround
      exact ⟨h.position, hround⟩
    | matched q =>
      rw [hend] at hround
      simp only [ite_self]
      exact hround
  | cons c room ih =>
    have hround := hattempt p h
    unfold iterate
    cases hend : attempt p with
    | failed furthest =>
      rw [hend] at hround
      exact ⟨h.position, hround⟩
    | matched q =>
      rw [hend] at hround
      simp only
      split
      · exact hround
      · exact ih hround

/-! ## Elements -/

variable {caseSensitive : Bool} {call : Bool → Nat → Progress → Attempt}

mutual

theorem element_staysWithin (hcall : ∀ emitting id, StaysWithin place (call emitting id))
    (e : Element) (emitting : Bool) :
    StaysWithin place (element caseSensitive call emitting e) := by
  intro p h
  cases e with
  | terminal text emits token =>
    unfold element
    exact leaf_staysWithin emitting _ p h
  | number name => exact leaf_staysWithin emitting _ p h
  | label name => exact leaf_staysWithin emitting _ p h
  | run chars negated => exact leaf_staysWithin emitting _ p h
  | rule name id => exact hcall emitting id p h
  | repeated body => exact iterate_within (element_staysWithin hcall body emitting) _ h
  | optional body =>
    have hbody := element_staysWithin hcall body emitting p h
    unfold element
    cases hend : element caseSensitive call emitting body p with
    | matched q =>
      rw [hend] at hbody
      exact hbody
    | failed furthest =>
      rw [hend] at hbody
      exact ⟨h.position, hbody⟩
  | notAhead body =>
    -- a lookahead keeps nothing of its body
    unfold element
    cases element caseSensitive call false body p with
    | matched q => exact h.furthest
    | failed furthest => exact h
  | choice sequences => exact alternatives_staysWithin hcall sequences emitting p h

theorem sequence_staysWithin (hcall : ∀ emitting id, StaysWithin place (call emitting id))
    (elements : List Element) (emitting : Bool) :
    StaysWithin place (sequence caseSensitive call emitting elements) := by
  intro p h
  cases elements with
  | nil => exact h
  | cons first rest =>
    have hfirst := element_staysWithin hcall first emitting p h
    unfold sequence
    cases hend : element caseSensitive call emitting first p with
    | failed furthest =>
      rw [hend] at hfirst
      exact hfirst
    | matched q =>
      rw [hend] at hfirst
      exact sequence_staysWithin hcall rest emitting q hfirst

theorem alternatives_staysWithin (hcall : ∀ emitting id, StaysWithin place (call emitting id))
    (sequences : List (List Element)) (emitting : Bool) :
    StaysWithin place (alternatives caseSensitive call emitting sequences) := by
  intro p h
  cases sequences with
  | nil => exact h.furthest
  | cons first rest =>
    have hfirst := sequence_staysWithin hcall first emitting p h
    unfold alternatives
    cases hend : sequence caseSensitive call emitting first p with
    | matched q =>
      rw [hend] at hfirst
      exact hfirst
    | failed furthest =>
      rw [hend] at hfirst
      exact alternatives_staysWithin hcall rest emitting _ ⟨h.position, hfirst⟩

end

/-! ## Rules -/

theorem rule_staysWithin (g : Grammar) (depth : Nat) (emitting : Bool) (id : Nat) :
    StaysWithin place (rule g caseSensitive depth emitting id) := by
  induction depth generalizing emitting id with
  | zero => exact fun p h => h.furthest
  | succ depth ih =>
    intro p h
    unfold rule
    cases g.rule? id with
    | none => exact h.furthest
    | some r => exact alternatives_staysWithin ih r.alternatives emitting p h

end

/-- The furthest failure of an attempt is at or after the place where it began. -/
theorem reachesOffset_ofAttempt {attempt : Progress → Attempt} {place : Position}
    (hattempt : StaysWithin place attempt) :
    place.ReachesOffset (ofAttempt attempt place place.offset).furthest := by
  have hend : (attempt ⟨place, [], place.offset⟩).Within place :=
    hattempt _ ⟨.refl place, place, .refl place, rfl⟩
  unfold ofAttempt
  cases hattempt : attempt ⟨place, [], place.offset⟩ with
  | matched p =>
    rw [hattempt] at hend
    exact hend.furthest
  | failed furthest =>
    rw [hattempt] at hend
    exact hend

/-- The furthest failure of a match is at or after the place where it began. -/
theorem reachesOffset_furthest (g : Grammar) (caseSensitive : Bool) (e : Element)
    (place : Position) :
    place.ReachesOffset (g.recognize caseSensitive e place place.offset).furthest :=
  reachesOffset_ofAttempt (element_staysWithin (rule_staysWithin g maxRuleDepth) e true)

end Recognition
end Compositing
