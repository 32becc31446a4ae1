import Compositing.Language
import Compositing.Proofs.Recognition.Moving

/-! # Running a document further down

    A handler follows another if it answers a unit that stands further down as
    the other answers it here, and related states stay related.  A run of the
    first over events that stand further down then ends as the run of the
    other does.  Nothing need be moved: so two states that differ only in what
    a document cannot see are run alike. -/

namespace Compositing

/-! ## Units and ends further down -/

/-- The unit further down. -/
def ActionUnit.moved {α : Type} (bytes lines : Nat) (u : ActionUnit α) : ActionUnit α :=
  ⟨u.action, u.token.moved bytes lines, u.arguments.map (Token.moved bytes lines)⟩

/-- The early end further down; `raise` moves the errors of a handler. -/
def RunError.moved {ε : Type} (bytes lines : Nat) (raise : ε → ε) : RunError ε → RunError ε
  | .noAction token => .noAction (token.moved bytes lines)
  | .handler error => .handler (raise error)

/-- Counts over one document and another. -/
instance : Add Summary :=
  ⟨fun a b => ⟨a.statements + b.statements, a.actions + b.actions, a.mismatches + b.mismatches,
    a.errors + b.errors⟩⟩

@[simp] theorem mapError_ok {ε ε' α : Type} (f : ε → ε') (a : α) :
    (Except.ok a).mapError f = .ok a := rfl

@[simp] theorem mapError_error {ε ε' α : Type} (f : ε → ε') (error : ε) :
    (Except.error error : Except ε α).mapError f = .error (f error) := rfl

theorem mapError_id {ε α : Type} (x : Except ε α) : x.mapError id = x := by
  cases x <;> rfl

theorem ok_of_toOption {ε α : Type} {x : Except ε α} {a : α} (h : x.toOption = some a) :
    x = .ok a := by
  cases x with
  | error error => cases h
  | ok a' => exact congrArg Except.ok (Option.some.inj h)

@[simp] theorem ActionUnit.moved_zero {α : Type} (u : ActionUnit α) : u.moved 0 0 = u := by
  simp [ActionUnit.moved]

theorem RunError.moved_zero {ε : Type} (error : RunError ε) : error.moved 0 0 id = error := by
  cases error <;> rfl

theorem Summary.zero_add (summary : Summary) : ⟨0, 0, 0, 0⟩ + summary = summary := by
  show Summary.mk _ _ _ _ = summary
  simp only [Nat.zero_add]

/-- Tokens that stand further down are cut as they are here. -/
theorem ActionUnit.cut_moved {α : Type} (action? : Nat → Option α) (bytes lines : Nat)
    (tokens : List Token) :
    cut action? (tokens.map (Token.moved bytes lines)) =
      ((cut action? tokens).1.map (Token.moved bytes lines),
        (cut action? tokens).2.map (ActionUnit.moved bytes lines)) := by
  induction tokens with
  | nil => rfl
  | cons t rest ih =>
    simp only [List.map_cons, cut, ih, Token.moved_id]
    cases action? t.id <;> rfl

/-! ## Following -/

section
variable {α σ τ ε : Type}

/-- Two answers to a unit, the second further down: the same but for the error, and the states
    they leave are related. -/
structure Handler.Answers (raise : ε → ε) (related : σ → τ → Prop)
    (here : Except ε Flow × Arguments × σ) (there : Except ε Flow × Arguments × τ) : Prop where
  answer : there.1 = here.1.mapError raise
  related : related here.2.2 there.2.2

/-- The second handler follows the first, further down. -/
structure Handler.Follows (h : Handler α σ ε) (h' : Handler α τ ε) (bytes lines : Nat)
    (raise : ε → ε) (related : σ → τ → Prop) : Prop where
  dispatch : ∀ (u : ActionUnit α) {s : σ} {t : τ}, related s t →
    Answers raise related (h.dispatch u.action u.token u.reader s)
      (h'.dispatch u.action (u.moved bytes lines).token (u.moved bytes lines).reader t)
  mismatch : ∀ (m : Mismatch) {s : σ} {t : τ}, related s t →
    related (h.mismatch m s) (h'.mismatch (m.moved bytes lines) t)

/-- Two ends of a run, the second further down: its summary counts what was counted before, too,
    and the states are related. -/
structure Handler.Ends {κ : Type} [Add κ] (bytes lines : Nat) (raise : ε → ε)
    (related : σ → τ → Prop) (before : κ) (here : Except (RunError ε) κ × σ)
    (there : Except (RunError ε) κ × τ) : Prop where
  result : there.1 = (here.1.map (before + ·)).mapError (RunError.moved bytes lines raise)
  related : related here.2 there.2

namespace Handler.Follows
variable {h : Handler α σ ε} {h' : Handler α τ ε} {bytes lines : Nat} {raise : ε → ε}
  {related : σ → τ → Prop} {s : σ} {t : τ}

/-- Units are followed. -/
theorem runUnits (hfollows : h.Follows h' bytes lines raise related)
    (units : List (ActionUnit α)) (hrelated : related s t) :
    Ends bytes lines raise related 0 (h.runUnits units s)
      (h'.runUnits (units.map (ActionUnit.moved bytes lines)) t) := by
  induction units generalizing s t with
  | nil => exact ⟨rfl, hrelated⟩
  | cons u rest ih =>
    have hanswers := hfollows.dispatch u hrelated
    have haction : (u.moved bytes lines).action = u.action := rfl
    simp only [List.map_cons, Handler.runUnits, haction]
    generalize h.dispatch u.action u.token u.reader s = here at hanswers ⊢
    generalize h'.dispatch u.action (u.moved bytes lines).token (u.moved bytes lines).reader t =
      there at hanswers ⊢
    obtain ⟨answer, unread, s₁⟩ := here
    obtain ⟨answer', unread', t₁⟩ := there
    obtain ⟨rfl, hrelated⟩ : answer' = answer.mapError raise ∧ related s₁ t₁ :=
      ⟨hanswers.answer, hanswers.related⟩
    cases answer with
    | error error => exact ⟨rfl, hrelated⟩
    | ok flow =>
      cases flow with
      | skipStatement => exact ⟨rfl, hrelated⟩
      | «continue» =>
        have hends := ih hrelated
        simp only [mapError_ok]
        generalize h.runUnits rest s₁ = here at hends ⊢
        generalize h'.runUnits (rest.map (ActionUnit.moved bytes lines)) t₁ = there at hends ⊢
        obtain ⟨result, s₂⟩ := here
        obtain ⟨result', t₂⟩ := there
        obtain ⟨rfl, hrelated⟩ : result' = _ ∧ related s₂ t₂ := ⟨hends.result, hends.related⟩
        cases result with
        | error error => exact ⟨rfl, hrelated⟩
        | ok count =>
          refine ⟨?_, hrelated⟩
          simp [Except.map]

/-- A statement is followed. -/
theorem runStatement (hfollows : h.Follows h' bytes lines raise related)
    (action? : Nat → Option α) (statement : Statement) (hrelated : related s t) :
    Ends bytes lines raise related 0 (h.runStatement action? statement s)
      (h'.runStatement action? (statement.moved bytes lines) t) := by
  simp only [Handler.runStatement, Statement.moved, ActionUnit.cut_moved]
  rcases ActionUnit.cut action? statement.tokens with ⟨_ | ⟨token, leading⟩, units⟩
  · exact hfollows.runUnits units hrelated
  · exact ⟨rfl, hrelated⟩

/-- Events are followed, whatever was counted before them. -/
theorem runEvents (hfollows : h.Follows h' bytes lines raise related)
    (action? : Nat → Option α) (before : Summary) (events : List Event) (summary : Summary)
    (hrelated : related s t) :
    Ends bytes lines raise related before (h.runEvents action? events summary s)
      (h'.runEvents action? (events.map (Event.moved bytes lines)) (before + summary) t) := by
  induction events generalizing summary s t with
  | nil => exact ⟨rfl, hrelated⟩
  | cons event rest ih =>
    cases event with
    | mismatch m => exact ih _ (hfollows.mismatch m hrelated)
    | statement statement =>
      have hends := hfollows.runStatement action? statement hrelated
      simp only [List.map_cons, Event.moved, Handler.runEvents]
      generalize h.runStatement action? statement s = here at hends ⊢
      generalize h'.runStatement action? (statement.moved bytes lines) t = there at hends ⊢
      obtain ⟨result, s₁⟩ := here
      obtain ⟨result', t₁⟩ := there
      obtain ⟨rfl, hrelated⟩ : result' = _ ∧ related s₁ t₁ := ⟨hends.result, hends.related⟩
      cases result with
      | error error => exact ⟨rfl, hrelated⟩
      | ok count =>
        have hcount : (before + summary).actions + count = before.actions + (summary.actions + count) :=
          Nat.add_assoc before.actions summary.actions count
        simp only [Except.map, mapError_ok, Nat.zero_add, hcount]
        exact ih _ hrelated

/-- A whole document is followed where it stands. -/
theorem run (hfollows : h.Follows h' 0 0 id related)
    (hend : ∀ {s t}, related s t → related (h.endDocument s) (h'.endDocument t))
    (l : Language α) (d : Document)
    (hbegin : related (h.beginDocument d s) (h'.beginDocument d t)) :
    (l.run h' d t).1 = (l.run h d s).1 ∧ related (l.run h d s).2 (l.run h' d t).2 := by
  have hends := hfollows.runEvents l.lexicon.action? ⟨0, 0, 0, 0⟩ (l.events d.text.toList)
    ⟨0, 0, 0, 0⟩ hbegin
  rw [Event.map_moved_zero, Summary.zero_add] at hends
  unfold Language.run
  simp only
  generalize h.runEvents l.lexicon.action? (l.events d.text.toList) ⟨0, 0, 0, 0⟩
    (h.beginDocument d s) = here at hends ⊢
  generalize h'.runEvents l.lexicon.action? (l.events d.text.toList) ⟨0, 0, 0, 0⟩
    (h'.beginDocument d t) = there at hends ⊢
  obtain ⟨result, s₁⟩ := here
  obtain ⟨result', t₁⟩ := there
  obtain ⟨rfl, hrelated⟩ : result' = _ ∧ related s₁ t₁ := ⟨hends.result, hends.related⟩
  cases result with
  | error error => exact ⟨congrArg Except.error error.moved_zero, hrelated⟩
  | ok summary => exact ⟨congrArg Except.ok summary.zero_add, hend hrelated⟩

end Handler.Follows

/-- What every unit and every mismatch keeps, events keep: a handler follows itself where the two
    states are one that has the property. -/
theorem Handler.keeps_runEvents {h : Handler α σ ε} {P : σ → Prop}
    (hdispatch : ∀ (u : ActionUnit α) {s : σ}, P s →
      P (h.dispatch u.action u.token u.reader s).2.2)
    (hmismatch : ∀ (m : Mismatch) {s : σ}, P s → P (h.mismatch m s))
    (action? : Nat → Option α) (events : List Event) (summary : Summary) {s : σ} (hs : P s) :
    P (h.runEvents action? events summary s).2 := by
  have hfollows : h.Follows h 0 0 id fun s t => s = t ∧ P s := by
    constructor
    · rintro u s _ ⟨rfl, hs⟩
      rw [u.moved_zero]
      exact ⟨(mapError_id _).symm, rfl, hdispatch u hs⟩
    · rintro m s _ ⟨rfl, hs⟩
      exact ⟨rfl, hmismatch m hs⟩
  exact (hfollows.runEvents action? ⟨0, 0, 0, 0⟩ events summary ⟨rfl, hs⟩).related.2

end
end Compositing
