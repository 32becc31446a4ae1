import Compositing.Proofs.Recognition.Changing
import Compositing.Statement

/-! # Moved texts

    Matching looks ahead only: at the characters that are left, never at the
    offset or the line it has reached.  So a text that stands further down in
    a longer one is matched alike and cut into the same statements, with every
    offset and every line moved by the same amounts. -/

namespace Compositing

/-! ## What is moved -/

/-- The same place in a text, further down. -/
def Position.moved (bytes lines : Nat) (p : Position) : Position :=
  { p with offset := p.offset + bytes, line := p.line + lines }

/-- The token further down. -/
def Token.moved (bytes lines : Nat) (t : Token) : Token :=
  { t with offset := t.offset + bytes, line := t.line + lines }

/-- The statement further down, with its tokens. -/
def Statement.moved (bytes lines : Nat) (s : Statement) : Statement :=
  ⟨s.tokens.map (Token.moved bytes lines), s.offset + bytes, s.line + lines⟩

/-- The mismatch further down. -/
def Mismatch.moved (bytes lines : Nat) (m : Mismatch) : Mismatch :=
  { m with offset := m.offset + bytes, line := m.line + lines }

/-- The event further down. -/
def Event.moved (bytes lines : Nat) : Event → Event
  | .statement s => .statement (s.moved bytes lines)
  | .mismatch m => .mismatch (m.moved bytes lines)

@[simp] theorem Token.moved_id (bytes lines : Nat) (t : Token) : (t.moved bytes lines).id = t.id :=
  rfl

@[simp] theorem Token.moved_zero (t : Token) : t.moved 0 0 = t := rfl

@[simp] theorem Token.map_moved_zero (tokens : List Token) :
    tokens.map (Token.moved 0 0) = tokens :=
  List.map_id tokens

@[simp] theorem Event.moved_zero (event : Event) : event.moved 0 0 = event := by
  cases event with
  | statement s => simp [Event.moved, Statement.moved]
  | mismatch m => rfl

@[simp] theorem Event.map_moved_zero (events : List Event) :
    events.map (Event.moved 0 0) = events := by
  rw [List.map_congr_left fun event _ => event.moved_zero, List.map_id']

section
variable (bytes lines : Nat)

namespace Position

@[simp] theorem moved_rest (p : Position) : (p.moved bytes lines).rest = p.rest := rfl

@[simp] theorem moved_offset (p : Position) :
    (p.moved bytes lines).offset = p.offset + bytes := rfl

@[simp] theorem moved_advance (n : Nat) (p : Position) :
    (p.moved bytes lines).advance n = (p.advance n).moved bytes lines := by
  simp only [advance_eq, moved, Position.mk.injEq, true_and]
  omega

@[simp] theorem moved_skipTrivia (p : Position) :
    (p.moved bytes lines).skipTrivia = p.skipTrivia.moved bytes lines := by
  unfold skipTrivia
  rw [moved_advance]
  rfl

theorem moved_forwardTo (offset : Nat) (p : Position) :
    (p.moved bytes lines).forwardTo (offset + bytes) =
      (p.forwardTo offset).moved bytes lines := by
  unfold forwardTo advanceBytes
  rw [moved_advance, moved_rest, moved_offset, Nat.add_sub_add_right]

end Position

/-! ## Attempts -/

namespace Recognition

/-- The progress of a match further down. -/
def Progress.moved (p : Progress) : Progress :=
  ⟨p.position.moved bytes lines, p.tokens.map (Token.moved bytes lines), p.furthest + bytes⟩

/-- The end of an attempt further down. -/
def Attempt.moved : Attempt → Attempt
  | .matched p => .matched (p.moved bytes lines)
  | .failed furthest => .failed (furthest + bytes)

/-- An attempt goes alike further down. -/
def IsMovable (attempt : Progress → Attempt) : Prop :=
  ∀ p : Progress, attempt (p.moved bytes lines) = (attempt p).moved bytes lines

variable {bytes lines : Nat}

/-- Standing further down is a change of offsets and lines only. -/
def moving (bytes lines : Nat) : Change := ⟨id, id, (· + bytes), (· + lines)⟩

theorem moving_isFaithful (bytes lines : Nat) : (moving bytes lines).IsFaithful where
  length _ := rfl
  offset m n := by
    show m + bytes = n + bytes ↔ m = n
    omega
  max m n := by
    show max (m + bytes) (n + bytes) = max m n + bytes
    omega
  advance := Position.moved_advance bytes lines
  skipTrivia := Position.moved_skipTrivia bytes lines

/-- Leaves see neither offsets nor lines. -/
theorem moving_keepsLeaves (caseSensitive : Bool) (elements : List Element) :
    (moving bytes lines).KeepsLeaves caseSensitive elements := by
  intro e _ scan _ text
  have htaken : (moving bytes lines).taken = id := by
    funext result
    exact congrArg (Prod.mk result.1) Option.map_id'
  rw [htaken, Option.map_id]
  rfl

theorem keeps_moving_iff {attempt : Progress → Attempt} :
    (moving bytes lines).Keeps attempt ↔ IsMovable bytes lines attempt := by
  have hend : ∀ a : Attempt, (moving bytes lines).attempt a = a.moved bytes lines := by
    intro a
    cases a <;> rfl
  refine forall_congr' fun p => ?_
  rw [hend]
  rfl

theorem rule_isMovable (g : Grammar) {caseSensitive : Bool} (depth : Nat) (emitting : Bool)
    (id : Nat) : IsMovable bytes lines (rule g caseSensitive depth emitting id) :=
  keeps_moving_iff.mp
    (rule_kept (moving_isFaithful bytes lines) (moving_keepsLeaves caseSensitive g.leaves) depth
      emitting id)

/-! ## Outcomes -/

/-- The outcome of a match further down. -/
def moved (bytes lines : Nat) (r : Recognition) : Recognition :=
  ⟨r.matched, r.position.moved bytes lines, r.tokens.map (Token.moved bytes lines),
    r.furthest + bytes⟩

/-- An attempt that goes alike further down has an outcome that is only moved. -/
theorem ofAttempt_moved {attempt : Progress → Attempt} (h : IsMovable bytes lines attempt)
    (place : Position) (startingAt : Nat) :
    ofAttempt attempt (place.moved bytes lines) (startingAt + bytes) =
      (ofAttempt attempt place startingAt).moved bytes lines :=
  ofAttempt_kept (keeps_moving_iff.mpr h) place startingAt

/-- Matching an element goes alike further down. -/
theorem recognize_moved (g : Grammar) (caseSensitive : Bool) (e : Element) (place : Position)
    (startingAt : Nat) :
    g.recognize caseSensitive e (place.moved bytes lines) (startingAt + bytes) =
      (g.recognize caseSensitive e place startingAt).moved bytes lines :=
  recognize_kept (moving_isFaithful bytes lines) (moving_keepsLeaves caseSensitive g.leaves)
    (moving_keepsLeaves caseSensitive e.leaves) place startingAt

end Recognition
end

/-! ## Events -/

/-- The next event further down, if a statement is matched there as it is here. -/
theorem Event.next?_moved {recognize : Position → Recognition} {bytes lines : Nat}
    (h : ∀ p : Position, recognize (p.moved bytes lines) = (recognize p).moved bytes lines)
    (p : Position) :
    next? recognize (p.moved bytes lines) =
      (next? recognize p).map fun (event, q) =>
        (event.moved bytes lines, q.moved bytes lines) := by
  unfold next?
  simp only [Position.moved_skipTrivia, h]
  by_cases hend : p.skipTrivia.atEnd = true
  · have hend' : (p.skipTrivia.moved bytes lines).atEnd = true := hend
    rw [if_pos hend, if_pos hend']
    rfl
  · have hend' : ¬ (p.skipTrivia.moved bytes lines).atEnd = true := hend
    rw [if_neg hend, if_neg hend']
    have hforward : ((recognize p.skipTrivia).moved bytes lines).position.offset =
        (recognize p.skipTrivia).position.offset + bytes := rfl
    simp only [hforward, Position.moved_offset, Nat.add_lt_add_iff_right]
    have hmatched : ((recognize p.skipTrivia).moved bytes lines).matched =
        (recognize p.skipTrivia).matched := rfl
    rw [hmatched]
    split
    · rfl
    · have hfurthest : ((recognize p.skipTrivia).moved bytes lines).furthest =
          (recognize p.skipTrivia).furthest + bytes := rfl
      rw [hfurthest, Position.moved_forwardTo, Position.moved_rest, Position.moved_advance]
      rfl

end Compositing
