import Compositing.Script.Session

/-! # What a dispatch does

    A request to the builder changes the builder and the journal and nothing
    else of a session.  `execute_ok` and `execute_error` say so for a whole
    command, and `dispatched` sorts the dispatches of a unit into the five
    ways they can go.  Proofs about runs work on these and leave the
    definitions closed. -/

namespace Compositing.Script

/-! ## Reports -/

/-- The wording of a stray closing brace. -/
theorem message_strayBrace : Refusal.strayBrace.message = "Unexpected terminating brace." := rfl

namespace Session
variable {σ : Type}

/-- The diagnostic that a report in a session makes. -/
def diagnostic (s : Session σ) (kind : DiagnosticKind) (line : Nat) (message : String) :
    Diagnostic :=
  ⟨kind, s.document, line, s.context.compositorName, message⟩

theorem report_diagnostics (s : Session σ) (kind : DiagnosticKind) (line : Nat)
    (message : String) :
    (s.report kind line message).diagnostics =
      s.diagnostics ++ [s.diagnostic kind line message] := by
  simp [diagnostics, report, diagnostic, Entry.report?]

@[simp] theorem report_context (s : Session σ) (kind : DiagnosticKind) (line : Nat)
    (message : String) : (s.report kind line message).context = s.context := rfl

/-- A refusal is reported with its kind and wording at the line of the unit. -/
theorem refuse_diagnostics (s : Session σ) (action : Action) (token : Token)
    (refusal : Refusal) :
    (s.refuse action token refusal).diagnostics =
      s.diagnostics ++ [s.diagnostic refusal.kind token.line refusal.message] := by
  simp only [refuse, report_diagnostics]
  rfl

@[simp] theorem skip_diagnostics (s : Session σ) (action : Action) :
    (s.skip action).diagnostics = s.diagnostics := rfl

/-! ## Requests -/

/-- Only the builder was asked for something: the context is the same and nothing was
    reported. -/
structure Requested (s s' : Session σ) : Prop where
  context : s'.context = s.context
  document : s'.document = s.document
  lastLine : s'.lastLine = s.lastLine
  errors : s'.errors = s.errors
  diagnostics : s'.diagnostics = s.diagnostics

theorem Requested.trans {s s' s'' : Session σ} (h : Requested s s') (h' : Requested s' s'') :
    Requested s s'' :=
  ⟨h'.context.trans h.context, h'.document.trans h.document, h'.lastLine.trans h.lastLine,
    h'.errors.trans h.errors, h'.diagnostics.trans h.diagnostics⟩

section
variable (b : Builder σ) (s : Session σ)

theorem requested_createCompositor (name : String) :
    Requested s (s.createCompositor b name).2 := by
  constructor <;> simp [createCompositor, diagnostics, Entry.report?]

theorem requested_createChild (parent : Handle) (kind : ChildKind) :
    Requested s (s.createChild b parent kind).2 := by
  constructor <;> simp [createChild, diagnostics, Entry.report?]

theorem requested_setAttribute (object : Handle) (attr : Attribute) :
    Requested s (s.setAttribute b object attr).2 := by
  constructor <;> simp [setAttribute, diagnostics, Entry.report?]

theorem requested_createChildWith (parent : Handle) (kind : ChildKind) (attr : Attribute) :
    Requested s (s.createChildWith b parent kind attr).2 := by
  have hchild := requested_createChild b s parent kind
  unfold createChildWith
  rcases hc : s.createChild b parent kind with ⟨error | handle, s₁⟩
  · rw [hc] at hchild
    exact hchild
  · rw [hc] at hchild
    have hattr := requested_setAttribute b s₁ handle attr
    rcases ha : s₁.setAttribute b handle attr with ⟨error | ⟨⟩, s₂⟩
    · rw [ha] at hattr
      simpa [ha] using hchild.trans hattr
    · rw [ha] at hattr
      simpa [ha] using hchild.trans hattr

end

/-! ## Requests that are granted -/

section
variable {b : Builder σ} {s : Session σ} {r r' : σ} {parent handle : Handle} {kind : ChildKind}
  {attr : Attribute}

theorem opening_createCompositor (enter : Context → Handle → Context) {name : String}
    (h : b.createCompositor name s.context.group s.builder = (.ok handle, r')) :
    ∃ journal, opening enter (s.createCompositor b name) =
      (.ok (), { s with context := enter s.context handle, builder := r', journal }) := by
  simp only [Session.createCompositor, h, opening]
  exact ⟨_, rfl⟩

theorem opening_createChild (enter : Context → Handle → Context)
    (h : b.createChild parent kind s.builder = (.ok handle, r')) :
    ∃ journal, opening enter (s.createChild b parent kind) =
      (.ok (), { s with context := enter s.context handle, builder := r', journal }) := by
  simp only [Session.createChild, h, opening]
  exact ⟨_, rfl⟩

theorem opening_createChildWith (enter : Context → Handle → Context)
    (h : b.createChild parent kind s.builder = (.ok handle, r))
    (hset : b.setAttribute handle attr r = (.ok (), r')) :
    ∃ journal, opening enter (s.createChildWith b parent kind attr) =
      (.ok (), { s with context := enter s.context handle, builder := r', journal }) := by
  simp only [Session.createChildWith, Session.createChild, Session.setAttribute, h, hset,
    opening]
  exact ⟨_, rfl⟩

theorem execute_set (h : b.setAttribute handle attr s.builder = (.ok (), r')) :
    ∃ journal, s.execute b (.set handle attr) =
      (.ok (), { s with builder := r', journal }) := by
  simp only [execute, Session.setAttribute, h]
  exact ⟨_, rfl⟩

end

/-! ## Commands -/

end Session

/-- The context after a command that was granted; `handle` is that of the block it opens. -/
def Command.after (handle : Handle) : Command → Context → Context
  | .close, c => c.close
  | .openCompositor name, c => c.openCompositor handle name
  | .openTechnique _, c => c.openTechnique handle
  | .openTarget _ _, c => c.openTarget handle false
  | .openOutputTarget _, c => c.openTarget handle true
  | .openPass _ _, c => c.openPass handle
  | .set _ _, c => c

namespace Session
variable {σ : Type} {b : Builder σ} {s s' : Session σ}

/-- The two ways the request of an opener can end. -/
theorem opening_cases (enter : Context → Handle → Context)
    {request : Except BuilderError Handle × Session σ} {result : Except BuilderError Unit}
    (hr : Requested s request.2) (h : opening enter request = (result, s')) :
    (result = .ok () ∧ ∃ handle s₁, Requested s s₁ ∧
      s' = { s₁ with context := enter s.context handle }) ∨
    ((∃ error, result = .error error) ∧ Requested s s') := by
  rcases request with ⟨error | handle, s₁⟩
  · cases h
    exact .inr ⟨⟨error, rfl⟩, hr⟩
  · cases h
    refine .inl ⟨rfl, handle, s₁, hr, ?_⟩
    rw [hr.context]

/-- A command changes the context as it says if it is granted, and otherwise not at all. -/
theorem execute_cases {command : Command} {result : Except BuilderError Unit}
    (h : s.execute b command = (result, s')) :
    (result = .ok () ∧ ∃ handle s₁, Requested s s₁ ∧
      s' = { s₁ with context := command.after handle s.context }) ∨
    ((∃ error, result = .error error) ∧ Requested s s') := by
  cases command with
  | close =>
    cases h
    exact .inl ⟨rfl, ⟨0⟩, s, ⟨rfl, rfl, rfl, rfl, rfl⟩, rfl⟩
  | openCompositor name =>
    exact opening_cases (fun c handle => c.openCompositor handle name)
      (requested_createCompositor b s name) h
  | openTechnique parent =>
    exact opening_cases Context.openTechnique (requested_createChild b s parent .technique) h
  | openTarget parent output =>
    exact opening_cases (fun c handle => c.openTarget handle false)
      (requested_createChildWith b s parent .target (.target (.outputName output))) h
  | openOutputTarget parent =>
    exact opening_cases (fun c handle => c.openTarget handle true)
      (requested_createChild b s parent .outputTarget) h
  | openPass parent type =>
    exact opening_cases Context.openPass (requested_createChildWith b s parent .pass _) h
  | set object attr =>
    have hr := requested_setAttribute b s object attr
    have h : s.setAttribute b object attr = (result, s') := h
    rw [h] at hr
    rcases result with error | ⟨⟩
    · exact .inr ⟨⟨error, rfl⟩, hr⟩
    · refine .inl ⟨rfl, ⟨0⟩, s', hr, ?_⟩
      simp [Command.after, ← hr.context]

/-- A granted command changes the context as it says. -/
theorem execute_ok {command : Command} (h : s.execute b command = (.ok (), s')) :
    ∃ handle s₁, Requested s s₁ ∧ s' = { s₁ with context := command.after handle s.context } := by
  rcases execute_cases h with ⟨_, hgranted⟩ | ⟨⟨_, herror⟩, _⟩
  · exact hgranted
  · cases herror

/-- A command that is not granted leaves the context alone. -/
theorem execute_error {command : Command} {error : BuilderError}
    (h : s.execute b command = (.error error, s')) : Requested s s' := by
  rcases execute_cases h with ⟨hok, _⟩ | ⟨_, hr⟩
  · cases hok
  · exact hr

/-! ## Dispatches -/

/-- The five ways a dispatch can go: its unit is skipped, the language turns out to be at odds
    with its actions, the unit is refused when it is read or by the builder, or it is carried
    out. -/
inductive Dispatched (b : Builder σ) (s : Session σ) (action : Action) (token : Token)
    (arguments : Arguments) : Except Inconsistency Flow × Arguments × Session σ → Prop where
  | skipped (hskip : 0 < s.context.skipDepth) :
    Dispatched b s action token arguments (.ok .continue, arguments, s.skip action)
  | inconsistent {inconsistency : Inconsistency} {rest : Arguments}
    (hskip : s.context.skipDepth = 0)
    (hread : (Command.read s.context token action).run arguments =
      (.error (.inconsistent inconsistency), rest)) :
    Dispatched b s action token arguments (.error inconsistency, rest, s)
  | unread {refusal : Refusal} {rest : Arguments} (hskip : s.context.skipDepth = 0)
    (hread : (Command.read s.context token action).run arguments =
      (.error (.refused refusal), rest)) :
    Dispatched b s action token arguments
      (.ok refusal.flow, rest, s.refuse action token refusal)
  | ungranted {command : Command} {rest : Arguments} {error : BuilderError} {s₁ : Session σ}
    (hskip : s.context.skipDepth = 0)
    (hread : (Command.read s.context token action).run arguments = (.ok command, rest))
    (hexecute : s.execute b command = (.error error, s₁)) :
    Dispatched b s action token arguments
      (.ok .continue, rest, s₁.refuse action token (.builder error))
  | done {command : Command} {rest : Arguments} {s₁ : Session σ}
    (hskip : s.context.skipDepth = 0)
    (hread : (Command.read s.context token action).run arguments = (.ok command, rest))
    (hexecute : s.execute b command = (.ok (), s₁)) :
    Dispatched b s action token arguments (.ok .continue, rest, s₁)

/-- Every dispatch goes one of the five ways. -/
theorem dispatched (b : Builder σ) (s : Session σ) (action : Action) (token : Token)
    (arguments : Arguments) :
    Dispatched b s action token arguments (s.dispatch b action token arguments) := by
  unfold dispatch
  by_cases hskip : 0 < s.context.skipDepth
  · rw [if_pos hskip]
    exact .skipped hskip
  · rw [if_neg hskip]
    have hskip : s.context.skipDepth = 0 := by omega
    rcases hread : (Command.read s.context token action).run arguments with
      ⟨(refusal | inconsistency) | command, rest⟩
    · exact .unread hskip hread
    · exact .inconsistent hskip hread
    · rcases hexecute : s.execute b command with ⟨error | ⟨⟩, s₁⟩
      · simp only [hexecute]
        exact .ungranted hskip hread hexecute
      · simp only [hexecute]
        exact .done hskip hread hexecute

/-! ## What is kept -/

/-- What a session keeps throughout a document. -/
structure Keeps (s s' : Session σ) : Prop where
  group : s'.context.group = s.context.group
  document : s'.document = s.document
  lastLine : s'.lastLine = s.lastLine

theorem Keeps.trans {s s' s'' : Session σ} (h : Keeps s s') (h' : Keeps s' s'') : Keeps s s'' :=
  ⟨h'.group.trans h.group, h'.document.trans h.document, h'.lastLine.trans h.lastLine⟩

theorem Requested.keeps (h : Requested s s') : Keeps s s' :=
  ⟨congrArg Context.group h.context, h.document, h.lastLine⟩

theorem group_after (command : Command) (handle : Handle) (c : Context) :
    (command.after handle c).group = c.group := by
  cases command with
  | close =>
    show c.close.group = c.group
    unfold Context.close
    cases c.innermost <;> rfl
  | _ => rfl

theorem dispatch_keeps (s : Session σ) (action : Action) (token : Token) (arguments : Arguments) :
    Keeps s (s.dispatch b action token arguments).2.2 := by
  have hd := dispatched b s action token arguments
  generalize s.dispatch b action token arguments = outcome at hd ⊢
  cases hd with
  | skipped _ | inconsistent _ _ | unread _ _ => exact ⟨rfl, rfl, rfl⟩
  | ungranted _ _ hexecute => exact (execute_error hexecute).keeps.trans ⟨rfl, rfl, rfl⟩
  | done _ _ hexecute =>
    obtain ⟨handle, s₁, hrequested, rfl⟩ := execute_ok hexecute
    exact ⟨group_after _ _ _, hrequested.document, hrequested.lastLine⟩

end Session
end Compositing.Script
