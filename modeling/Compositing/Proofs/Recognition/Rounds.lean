import Compositing.Proofs.Text.Advance
import Compositing.Recognition

/-! # Rounds of a repetition

    A repetition is the one loop among the attempts.  It ends with a round that
    fails or that stays, and every other round leaves less text to the rounds
    after it.  So the characters ahead are room enough for all of them. -/

namespace Compositing.Recognition

/-- Repeating an attempt without a bound: `Rounds attempt p n q` says that `n` rounds are begun
    from `p` on, and that they end at `q`. -/
inductive Rounds (attempt : Progress → Attempt) : Progress → Nat → Progress → Prop where
  | fails {p furthest} (hround : attempt p = .failed furthest) :
    Rounds attempt p 1 { p with furthest }
  | stays {p q} (hround : attempt p = .matched q)
    (hoffset : q.position.offset = p.position.offset) : Rounds attempt p 1 q
  | goes {p q r n} (hround : attempt p = .matched q)
    (hoffset : q.position.offset ≠ p.position.offset) (hrest : Rounds attempt q n r) :
    Rounds attempt p (n + 1) r

/-- An attempt that leads forward wherever it matches. -/
def LeadsForward (attempt : Progress → Attempt) : Prop :=
  ∀ p q, attempt p = .matched q → p.position.Reaches q.position

/-- The rounds of a repetition end in one way only. -/
theorem Rounds.unique {attempt : Progress → Attempt} {p q q' : Progress} {n n' : Nat}
    (h : Rounds attempt p n q) (h' : Rounds attempt p n' q') : n' = n ∧ q' = q := by
  induction h generalizing n' q' with
  | fails hround =>
    cases h' with
    | fails hround' =>
      cases hround.symm.trans hround'
      exact ⟨rfl, rfl⟩
    | stays hround' _ | goes hround' _ _ => cases hround.symm.trans hround'
  | stays hround hoffset =>
    cases h' with
    | fails hround' => cases hround.symm.trans hround'
    | stays hround' _ =>
      cases hround.symm.trans hround'
      exact ⟨rfl, rfl⟩
    | goes hround' hoffset' _ =>
      cases hround.symm.trans hround'
      exact absurd hoffset hoffset'
  | goes hround hoffset _ ih =>
    cases h' with
    | fails hround' => cases hround.symm.trans hround'
    | stays hround' hoffset' =>
      cases hround.symm.trans hround'
      exact absurd hoffset' hoffset
    | goes hround' _ hrest' =>
      cases hround.symm.trans hround'
      obtain ⟨hn, hq⟩ := ih hrest'
      exact ⟨by omega, hq⟩

/-- With room for the characters ahead a repetition goes through all of its rounds.  The
    induction is on the room: a round that changes the offset uses up one of the characters. -/
theorem exists_rounds {attempt : Progress → Attempt} (hforward : LeadsForward attempt)
    (room : List Char) (p : Progress) (hroom : p.position.rest.length ≤ room.length) :
    ∃ n, Rounds attempt p n (iterate attempt room p) ∧ n ≤ p.position.rest.length + 1 := by
  induction room generalizing p with
  | nil =>
    unfold iterate
    cases hround : attempt p with
    | failed furthest => exact ⟨1, .fails hround, by omega⟩
    | matched q =>
      by_cases hoffset : q.position.offset = p.position.offset
      · simp only [hoffset, if_true]
        exact ⟨1, .stays hround hoffset, by omega⟩
      · -- no character is left, so no round can advance
        have hless := (hforward p q hround).length_lt hoffset
        rw [List.length_nil] at hroom
        omega
  | cons c room ih =>
    unfold iterate
    cases hround : attempt p with
    | failed furthest => exact ⟨1, .fails hround, by omega⟩
    | matched q =>
      by_cases hoffset : q.position.offset = p.position.offset
      · simp only [hoffset, if_true]
        exact ⟨1, .stays hround hoffset, by omega⟩
      · simp only [hoffset, if_false]
        have hless := (hforward p q hround).length_lt hoffset
        rw [List.length_cons] at hroom
        obtain ⟨n, hrest, hn⟩ := ih q (by omega)
        exact ⟨n + 1, .goes hround hoffset hrest, by omega⟩

end Compositing.Recognition
