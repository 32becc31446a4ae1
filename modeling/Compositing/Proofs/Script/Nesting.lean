import Compositing.Proofs.Script.Dispatch
import Compositing.Proofs.Script.Reading

/-! # Nesting

    A context holds a handle for each block around the next statement and for
    no other: that of the innermost block, of the block it stands in, and so
    on.  Commands keep this, and so does refusing or skipping a unit, which
    touch no handle. -/

namespace Compositing.Script

/-- The context has a handle for every open block and for no other. -/
structure Context.Nested (c : Context) : Prop where
  compositor : c.compositor.isSome ↔ 1 ≤ c.innermost.depth
  technique : c.technique.isSome ↔ 2 ≤ c.innermost.depth
  target : c.target.isSome ↔ 3 ≤ c.innermost.depth
  pass : c.pass.isSome ↔ 4 ≤ c.innermost.depth
  outputTarget : c.outputTarget = true → 3 ≤ c.innermost.depth

/-- No block is open at the beginning of a document. -/
theorem nested_initial (group : String) : (Context.initial group).Nested := by
  constructor <;> simp [Context.initial, Section.depth]

/-- The block that a statement stands in has a handle. -/
theorem exists_handle {c : Context} (h : c.Nested) (hin : c.innermost ≠ .none) :
    ∃ handle, c.handle? c.innermost = some handle := by
  have hsome : (c.handle? c.innermost).isSome := by
    obtain ⟨hcompositor, htechnique, htarget, hpass, _⟩ := h
    cases hsection : c.innermost with
    | none => exact absurd hsection hin
    | compositor | technique | target | pass =>
      simp_all [Context.handle?, Section.depth]
  exact Option.isSome_iff_exists.mp hsome

/-- In a nested context no unit is found to stand in a block without a handle. -/
theorem cause_of_read {c : Context} (h : c.Nested) {token : Token} {action : Action}
    {arguments rest : Arguments} {inconsistency : Inconsistency}
    (hread : (Command.read c token action).run arguments =
      (.error (.inconsistent inconsistency), rest)) (within : Section) :
    inconsistency.cause ≠ .noHandle within := by
  by_cases haction : action = .closeBrace
  · subst haction
    by_cases hin : c.innermost = .none
    · simp only [Command.read, hin, if_true] at hread
      cases hread
    · simp only [Command.read, hin, if_false] at hread
      cases hread
  · have harises := arises_of_read haction _ _ _ hread
    obtain ⟨line, cause⟩ := inconsistency
    rintro rfl
    obtain ⟨rfl, hin, hhandle⟩ := harises
    obtain ⟨handle, hsome⟩ := exists_handle h hin
    rw [hhandle] at hsome
    cases hsome

/-- A granted command opens its block inside the innermost one, or closes the innermost one. -/
theorem nested_after {c : Context} {action : Action} {command : Command} (h : c.Nested)
    (hadmits : Admits c action command) (handle : Handle) : (command.after handle c).Nested := by
  obtain ⟨hcompositor, htechnique, htarget, hpass, houtput⟩ := h
  cases action with
  | closeBrace =>
    -- closing clears the handle of the innermost block only
    obtain ⟨hin, rfl⟩ := hadmits
    cases hsection : c.innermost with
    | none => exact absurd hsection hin
    | compositor | technique | target | pass =>
      constructor <;>
        simp_all [Command.after, Context.close, Section.depth, Section.parent]
  | compositor =>
    obtain ⟨hin, name, rfl⟩ := hadmits
    constructor <;> simp_all [Command.after, Context.openCompositor, Section.depth]
  | technique =>
    obtain ⟨hin, parent, _, rfl⟩ := hadmits
    constructor <;> simp_all [Command.after, Context.openTechnique, Section.depth]
  | target =>
    obtain ⟨hin, parent, output, _, rfl⟩ := hadmits
    constructor <;> simp_all [Command.after, Context.openTarget, Section.depth]
  | targetOutput =>
    obtain ⟨hin, parent, _, rfl⟩ := hadmits
    constructor <;> simp_all [Command.after, Context.openTarget, Section.depth]
  | pass =>
    obtain ⟨hin, parent, type, _, rfl⟩ := hadmits
    constructor <;> simp_all [Command.after, Context.openPass, Section.depth]
  | texture =>
    obtain ⟨_, technique, texture, _, rfl⟩ := hadmits
    exact ⟨hcompositor, htechnique, htarget, hpass, houtput⟩
  | _ =>
    obtain ⟨_, target, attr, _, _, rfl⟩ | ⟨_, pass, attr, _, rfl⟩ := hadmits
    · exact ⟨hcompositor, htechnique, htarget, hpass, houtput⟩
    · exact ⟨hcompositor, htechnique, htarget, hpass, houtput⟩

namespace Session
variable {σ : Type} {b : Builder σ} {s : Session σ}

theorem nested_skip (action : Action) (h : s.context.Nested) : (s.skip action).context.Nested :=
  ⟨h.compositor, h.technique, h.target, h.pass, h.outputTarget⟩

theorem nested_refuse (action : Action) (token : Token) (refusal : Refusal)
    (h : s.context.Nested) : (s.refuse action token refusal).context.Nested :=
  ⟨h.compositor, h.technique, h.target, h.pass, h.outputTarget⟩

/-- Every dispatch keeps the context nested. -/
theorem nested_dispatch (action : Action) (token : Token) (arguments : Arguments)
    (h : s.context.Nested) : (s.dispatch b action token arguments).2.2.context.Nested := by
  have hd := dispatched b s action token arguments
  generalize s.dispatch b action token arguments = outcome at hd ⊢
  cases hd with
  | skipped _ => exact nested_skip action h
  | inconsistent _ _ => exact h
  | unread _ _ => exact nested_refuse action token _ h
  | ungranted _ _ hexecute =>
    refine nested_refuse action token _ ?_
    rw [(execute_error hexecute).context]
    exact h
  | done _ hread hexecute =>
    obtain ⟨handle, s₁, _, rfl⟩ := execute_ok hexecute
    exact nested_after h (admits_of_read hread) handle

end Session
end Compositing.Script
