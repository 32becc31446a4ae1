import Compositing.Proofs.Language.Handing
import Compositing.Proofs.Script.Outcome

/-! # A document step by step

    The events of a document are carried out in steps: at each the session
    meets a mismatch, or a unit that is handed over.  At most one diagnostic is
    reported at a step, and none anywhere else before the end.  So the
    diagnostics of a document are those of its steps, in order, and there is one
    for each mismatch and one for each unit that is refused. -/

namespace Compositing.Script

/-! ## Steps -/

/-- What a session meets at a step. -/
inductive Turn where
  | unit (u : ActionUnit Action)
  | mismatch (m : Mismatch)

namespace Turn

/-- The turn as a call of the session. -/
def call : Turn → Call
  | unit u => .dispatch u.action u.token u.reader
  | mismatch m => .mismatch m

/-- The offset of the token that begins the unit, or of the failure. -/
def offset : Turn → Nat
  | unit u => u.token.offset
  | mismatch m => m.offset

/-- The line of the token that begins the unit, or of the failure. -/
def line : Turn → Nat
  | unit u => u.token.line
  | mismatch m => m.line

end Turn

/-- A turn and the session that meets it. -/
structure Step (σ : Type) where
  session : Session σ
  turn : Turn

namespace Step
variable {σ : Type}

/-- Is the step a mismatch? -/
def isMismatch (step : Step σ) : Bool :=
  match step.turn with
  | .unit _ => false
  | .mismatch _ => true

/-- The number of open blocks after steps. -/
def blocks (steps : List (Step σ)) : Nat := Call.blocks (steps.map (·.turn.call))

section
variable (b : Builder σ)

/-- Is the step a unit that is refused? -/
def isRefused (step : Step σ) : Bool :=
  match step.turn with
  | .unit u => (step.session.refusal? b u).isSome
  | .mismatch _ => false

/-- What is reported at the step, if anything is. -/
def report? (step : Step σ) : Option Diagnostic :=
  match step.turn with
  | .unit u =>
    (step.session.refusal? b u).map fun refusal =>
      step.session.diagnostic refusal.kind u.token.line refusal.message
  | .mismatch m => some (step.session.diagnostic .syntaxMismatch m.line m.message)

/-- The step as the handler hears it, with the answer to a unit. -/
def heard (step : Step σ) : Handler.Call Action Inconsistency :=
  match step.turn with
  | .unit u => u.call (step.session.dispatch b u.action u.token u.reader).1
  | .mismatch m => .mismatch m

/-- There is a report for each mismatch and for each refused unit. -/
theorem length_reports (steps : List (Step σ)) :
    (steps.filterMap (report? b)).length =
      steps.countP isMismatch + steps.countP (isRefused b) := by
  induction steps with
  | nil => rfl
  | cons step steps ih =>
    obtain ⟨s, turn⟩ := step
    cases turn with
    | mismatch m =>
      simp only [List.filterMap_cons, List.countP_cons, report?, isMismatch, isRefused,
        List.length_cons, ih, if_true, Bool.false_eq_true, if_false]
      omega
    | unit u =>
      cases hrefusal : s.refusal? b u with
      | none =>
        simp only [List.filterMap_cons, List.countP_cons, report?, isMismatch, isRefused, hrefusal,
          Option.map_none, Option.isSome_none, Bool.false_eq_true, if_false, ih]
        omega
      | some refusal =>
        simp only [List.filterMap_cons, List.countP_cons, report?, isMismatch, isRefused, hrefusal,
          Option.map_some, Option.isSome_some, Bool.false_eq_true, if_false, if_true,
          List.length_cons, ih]
        omega

/-- What is reported at a step names the document of its session and the compositor that is open in
    it, and has the line of the turn. -/
theorem of_report? {step : Step σ} {diagnostic : Diagnostic}
    (h : step.report? b = some diagnostic) :
    diagnostic.document = step.session.document ∧
      diagnostic.compositor = step.session.context.compositorName ∧
      diagnostic.line = step.turn.line := by
  obtain ⟨s, turn⟩ := step
  cases turn with
  | mismatch m =>
    cases h
    exact ⟨rfl, rfl, rfl⟩
  | unit u =>
    obtain ⟨refusal, _, rfl⟩ := Option.map_eq_some_iff.mp h
    exact ⟨rfl, rfl, rfl⟩

end
end Step

namespace Session
variable {σ : Type} {b : Builder σ} {s s' s₁ : Session σ}

/-! ## One step -/

/-- As many errors are counted as were reported. -/
def Counted (s : Session σ) : Prop := s.errors = s.diagnostics.length

theorem Counted.report (h : s.Counted) (kind : DiagnosticKind) (line : Nat) (message : String) :
    (s.report kind line message).Counted := by
  show s.errors + 1 = _
  rw [report_diagnostics, List.length_append, List.length_singleton, h]

theorem Counted.refuse (h : s.Counted) (action : Action) (token : Token) (refusal : Refusal) :
    (s.refuse action token refusal).Counted := by
  show s.errors + 1 = _
  rw [refuse_diagnostics, List.length_append, List.length_singleton, h]

theorem Counted.requested (h : s.Counted) (hr : Requested s s') : s'.Counted := by
  show s'.errors = _
  rw [hr.errors, hr.diagnostics, h]

theorem Counted.dispatch (h : s.Counted) (action : Action) (token : Token)
    (arguments : Arguments) : (s.dispatch b action token arguments).2.2.Counted := by
  have hd := dispatched b s action token arguments
  generalize s.dispatch b action token arguments = outcome at hd ⊢
  cases hd with
  | skipped _ | inconsistent _ _ => exact h
  | unread _ _ => exact h.refuse _ _ _
  | ungranted _ _ hexecute => exact (h.requested (execute_error hexecute)).refuse _ _ _
  | done _ _ hexecute =>
    obtain ⟨handle, s₁, hrequested, rfl⟩ := execute_ok hexecute
    have hcounted : s₁.Counted := h.requested hrequested
    exact hcounted

theorem Counted.endDocument (h : s.Counted) : s.endDocument.Counted := by
  unfold Session.endDocument
  cases s.context.openBlocks with
  | zero => exact h
  | succ count => exact h.report _ _ _

/-- A call that does not end the document is a dispatch that is answered, or a mismatch. -/
theorem call_cases {turn : Turn} (h : s.call b turn.call = .ok s₁) :
    (∃ u flow rest, turn = .unit u ∧
      s.dispatch b u.action u.token u.reader = (.ok flow, rest, s₁)) ∨
    (∃ m, turn = .mismatch m ∧ s₁ = s.mismatch m) := by
  cases turn with
  | mismatch m =>
    cases h
    exact .inr ⟨m, rfl, rfl⟩
  | unit u =>
    simp only [Turn.call, Session.call] at h
    rcases hd : s.dispatch b u.action u.token u.reader with ⟨_ | flow, rest, s₂⟩
    · rw [hd] at h
      cases h
    · rw [hd] at h
      cases h
      exact .inl ⟨u, flow, rest, rfl, hd⟩

/-- What is reported at a step is all that it adds to the diagnostics. -/
theorem call_reports {turn : Turn} (h : s.call b turn.call = .ok s₁) :
    s₁.diagnostics = s.diagnostics ++ (Step.report? b ⟨s, turn⟩).toList := by
  rcases call_cases h with ⟨u, flow, rest, rfl, hdispatch⟩ | ⟨m, rfl, rfl⟩
  · rcases dispatch_told hdispatch with ⟨hnone, _, hsame⟩ | ⟨refusal, hsome, _, hmore⟩
    · simp [Step.report?, hnone, hsame]
    · simp [Step.report?, hsome, hmore]
  · exact report_diagnostics s _ m.line m.message

/-- A step keeps the document, the nesting of the context and the count of the errors. -/
theorem call_keeps {turn : Turn} (h : s.call b turn.call = .ok s₁) :
    Keeps s s₁ ∧ (s.context.Nested → s₁.context.Nested) ∧ (s.Counted → s₁.Counted) := by
  rcases call_cases h with ⟨u, flow, rest, rfl, hdispatch⟩ | ⟨m, rfl, rfl⟩
  · have hkeeps := dispatch_keeps (b := b) s u.action u.token u.reader
    have hnested := nested_dispatch (b := b) (s := s) u.action u.token u.reader
    rw [hdispatch] at hkeeps hnested
    refine ⟨hkeeps, hnested, fun hcounted => ?_⟩
    have hcounted := hcounted.dispatch (b := b) u.action u.token u.reader
    rwa [hdispatch] at hcounted
  · exact ⟨⟨rfl, rfl, rfl⟩, id, fun hcounted => hcounted.report _ _ _⟩

/-! ## Many steps -/

/-- The session goes through the steps, none of which ends the document. -/
inductive Course (b : Builder σ) : Session σ → List (Step σ) → Session σ → Prop where
  | done {s : Session σ} : Course b s [] s
  | step {s s₁ s' : Session σ} {turn rest} (hcall : s.call b turn.call = .ok s₁)
    (hrest : Course b s₁ rest s') : Course b s (⟨s, turn⟩ :: rest) s'

namespace Course
variable {steps before after : List (Step σ)}

/-- Two courses make one. -/
theorem append (h : Course b s before s₁) (h' : Course b s₁ after s') :
    Course b s (before ++ after) s' := by
  induction h with
  | done => exact h'
  | step hcall _ ih => exact .step hcall (ih h')

/-- A course leads to each of its steps. -/
theorem split {step : Step σ} (h : Course b s (before ++ step :: after) s') :
    Course b s before step.session := by
  induction before generalizing s with
  | nil =>
    cases h
    exact .done
  | cons first before ih =>
    cases h with
    | step hcall hrest => exact .step hcall (ih hrest)

/-- The diagnostics of a course are those of its steps. -/
theorem diagnostics_eq (h : Course b s steps s') :
    s'.diagnostics = s.diagnostics ++ steps.filterMap (Step.report? b) := by
  induction h with
  | done => simp
  | @step s s₁ s' turn rest hcall _ ih =>
    rw [ih, call_reports hcall, List.append_assoc]
    cases hreport : Step.report? b ⟨s, turn⟩ <;> simp [hreport]

/-- A course keeps what a step keeps. -/
theorem keeps (h : Course b s steps s') :
    Keeps s s' ∧ (s.context.Nested → s'.context.Nested) ∧ (s.Counted → s'.Counted) := by
  induction h with
  | done => exact ⟨⟨rfl, rfl, rfl⟩, id, id⟩
  | step hcall _ ih =>
    obtain ⟨hkeeps, hnested, hcounted⟩ := call_keeps hcall
    exact ⟨hkeeps.trans ih.1, fun h => ih.2.1 (hnested h), fun h => ih.2.2 (hcounted h)⟩

end Course

/-! ## The steps of a document -/

/-- Units that do not end the document are handed over step by step. -/
theorem course_of_runUnits {units : List (ActionUnit Action)} {count : Nat}
    (h : (handler b).runUnits units s = (.ok count, s')) :
    ∃ steps answered, Course b s steps s' ∧
      Handler.Handed units answered (Except.ok count : Except (RunError Inconsistency) Nat) ∧
      steps.map (Step.heard b) = answered.map (fun (u, answer) => u.call answer) ∧
      ∀ step ∈ steps, step.isMismatch = false := by
  induction units generalizing s count with
  | nil =>
    cases h
    refine ⟨[], [], .done, .done, rfl, ?_⟩
    simp
  | cons u units ih =>
    rcases hdispatch : s.dispatch b u.action u.token u.reader with ⟨error | flow, rest, s₁⟩
    · simp [Handler.runUnits, handler_dispatch, hdispatch] at h
    · have hcall : s.call b (Turn.unit u).call = .ok s₁ := by
        simp only [Turn.call, Session.call, hdispatch]
      have hheard : ∀ answer, (s.dispatch b u.action u.token u.reader).1 = answer →
          Step.heard b ⟨s, .unit u⟩ = u.call answer := by
        rintro _ rfl
        rfl
      simp only [Handler.runUnits, handler_dispatch, hdispatch] at h
      cases flow with
      | skipStatement =>
        cases h
        refine ⟨[⟨s, .unit u⟩], [(u, .ok .skipStatement)], .step hcall .done, .skips, ?_, ?_⟩
        · rw [List.map_singleton, List.map_singleton, hheard _ (congrArg Prod.fst hdispatch)]
        · simp [Step.isMismatch]
      | «continue» =>
        rcases hrun : (handler b).runUnits units s₁ with ⟨error | others, s₂⟩
        · simp [hrun] at h
        · simp only [hrun] at h
          cases h
          obtain ⟨steps, answered, hcourse, hhanded, hsteps, hunits⟩ := ih hrun
          refine ⟨⟨s, .unit u⟩ :: steps, (u, .ok .continue) :: answered, .step hcall hcourse,
            .goesOn hhanded, ?_, ?_⟩
          · rw [List.map_cons, List.map_cons, hsteps, hheard _ (congrArg Prod.fst hdispatch)]
          · exact List.forall_mem_cons.mpr ⟨rfl, hunits⟩

/-- Events that do not end the document are carried out step by step and heard in order. -/
theorem course_of_runEvents {action? : Nat → Option Action} {events : List Event}
    {summary summary' : Summary}
    (h : (handler b).runEvents action? events summary s = (.ok summary', s')) :
    ∃ steps counted, Course b s steps s' ∧
      Handler.Heard action? events (steps.map (Step.heard b))
        (Except.ok counted : Except (RunError Inconsistency) Summary) ∧
      summary' = summary + counted ∧ counted.mismatches = steps.countP Step.isMismatch := by
  induction events generalizing s summary with
  | nil =>
    cases h
    exact ⟨[], ⟨0, 0, 0, 0⟩, .done, .done, rfl, rfl⟩
  | cons event events ih =>
    cases event with
    | mismatch m =>
      obtain ⟨steps, counted, hcourse, hheard, hsummary, hmismatches⟩ := ih h
      have hcall : s.call b (Turn.mismatch m).call = .ok (s.mismatch m) := rfl
      refine ⟨⟨s, .mismatch m⟩ :: steps, ⟨0, 0, 1, 0⟩ + counted, .step hcall hcourse,
        .mismatch hheard, ?_, ?_⟩
      · rw [hsummary]
        simp only [Handler.summary_add, Nat.zero_add, Nat.add_assoc]
      · rw [List.countP_cons_of_pos rfl, ← hmismatches]
        exact Nat.add_comm 1 counted.mismatches
    | statement statement =>
      simp only [Handler.runEvents, Handler.runStatement] at h
      rcases hcut : ActionUnit.cut action? statement.tokens with ⟨_ | ⟨t, leading⟩, units⟩
      · simp only [hcut] at h
        rcases hunits : (handler b).runUnits units s with ⟨error | count, s₁⟩
        · simp [hunits] at h
        · simp only [hunits] at h
          obtain ⟨first, answered, hfirst, hhanded, hsteps, hnone⟩ := course_of_runUnits hunits
          obtain ⟨steps, counted, hcourse, hheard, hsummary, hmismatches⟩ := ih h
          refine ⟨first ++ steps, ⟨1, count, 0, 0⟩ + counted, hfirst.append hcourse, ?_, ?_, ?_⟩
          · rw [List.map_append, hsteps]
            exact .statement (ActionUnit.isCut_iff.mpr hcut) hhanded hheard
          · rw [hsummary]
            simp only [Handler.summary_add, Nat.zero_add, Nat.add_assoc]
          -- the steps of a statement are units, so that it adds no mismatch
          · have hzero : first.countP Step.isMismatch = 0 := by
              rw [List.countP_eq_zero]
              intro step hstep
              rw [hnone step hstep]
              decide
            rw [List.countP_append, hzero, ← hmismatches]
            rfl
      · simp [hcut] at h

end Session
end Compositing.Script
