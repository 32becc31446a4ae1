import Compositing.Proofs.Recognition.Places
import Compositing.Proofs.Script.Path
import Compositing.Proofs.Script.Steps

/-! # What diagnostics are counted and whom they name

    A compositor is open from the step that opens it, where no block was open,
    up to the step at which no block is open any more.  Units that are refused
    or skipped in between open and close blocks like any other, so that the
    counter of open blocks is all there is to know.  A diagnostic names the
    compositor that is open when it is reported. -/

namespace Compositing.Script

/-! ## The open compositor -/

section
variable {σ : Type} (b : Builder σ)

/-- The unit of the step is a compositor with that name and is not refused. -/
def Step.Opens (step : Step σ) (name : String) : Prop :=
  ∃ u, step.turn = .unit u ∧ u.action = .compositor ∧
    u.arguments.head?.map (·.kind) = some (.label name) ∧ step.session.refusal? b u = none

/-- After the steps the compositor is open: it was opened where no block was open, and since then
    there was an open block all the time. -/
inductive CompositorOpen : List (Step σ) → String → Prop where
  | opened {before step name} (hclosed : Step.blocks before = 0) (hopens : step.Opens b name) :
    CompositorOpen (before ++ [step]) name
  | stays {before step name} (hopen : CompositorOpen before name)
    (hblocks : 0 < Step.blocks (before ++ [step])) : CompositorOpen (before ++ [step]) name

end

theorem Step.blocks_snoc {σ : Type} (before : List (Step σ)) (step : Step σ) :
    Step.blocks (before ++ [step]) = step.turn.call.count (Step.blocks before) := by
  simp [Step.blocks, Call.blocks]

namespace Context
variable {c : Context}

/-- A compositor has a name exactly where it is around the next statement. -/
theorem Nested.isSome_compositorName (h : c.Nested) :
    c.compositorName.isSome ↔ 1 ≤ c.innermost.depth := by
  rw [compositorName, Option.isSome_map, h.compositor]

/-- Where a compositor has a name its block is open. -/
theorem Nested.openBlocks_of_name (h : c.Nested) {name : String}
    (hname : c.compositorName = some name) : 0 < c.openBlocks := by
  have hdepth := h.isSome_compositorName.mp (by rw [hname]; rfl)
  simp only [openBlocks]
  omega

theorem innermost_of_openBlocks (h : c.openBlocks = 0) :
    c.innermost = .none ∧ c.skipDepth = 0 := by
  simp only [openBlocks] at h
  refine ⟨?_, by omega⟩
  cases hin : c.innermost with
  | none => rfl
  | _ => simp [hin, Section.depth] at h

end Context

/-- A granted command after which a block is open leaves the open compositor as it was, unless it
    opens one. -/
theorem compositorName_after {c : Context} {action : Action} {command : Command}
    (hadmits : Admits c action command) (hskip : c.skipDepth = 0) (handle : Handle)
    (hopen : 0 < (command.after handle c).openBlocks) :
    (command.after handle c).compositorName = c.compositorName ∨
      action = .compositor ∧ c.innermost = .none ∧ ∃ name, command = .openCompositor name := by
  cases action with
  | closeBrace =>
    have hcount := openBlocks_after hadmits handle
    obtain ⟨hin, rfl⟩ := hadmits
    have hdepth := depth_parent hin
    simp only [Action.count, Action.opensBlock, Bool.false_eq_true, if_false, if_true,
      Context.openBlocks, hskip] at hcount hopen
    -- the brace of a compositor would leave no block open
    exact .inl (compositorName_close (by omega))
  | compositor => exact .inr ⟨rfl, hadmits.1, hadmits.2⟩
  | technique =>
    obtain ⟨_, _, _, rfl⟩ := hadmits
    exact .inl rfl
  | target =>
    obtain ⟨_, _, _, _, rfl⟩ := hadmits
    exact .inl rfl
  | targetOutput =>
    obtain ⟨_, _, _, rfl⟩ := hadmits
    exact .inl rfl
  | pass =>
    obtain ⟨_, _, _, _, rfl⟩ := hadmits
    exact .inl rfl
  | texture =>
    obtain ⟨_, _, _, _, rfl⟩ := hadmits
    exact .inl rfl
  | _ =>
    obtain ⟨_, _, _, _, _, rfl⟩ | ⟨_, _, _, _, rfl⟩ := hadmits
    · exact .inl rfl
    · exact .inl rfl

namespace Session
variable {σ : Type} {b : Builder σ} {s s₁ s' : Session σ}

/-- A step that opens a compositor where no block is open leaves it open. -/
theorem compositorName_of_opens {turn : Turn} {name : String} (hclosed : s.context.openBlocks = 0)
    (hopens : Step.Opens b ⟨s, turn⟩ name) (h : s.call b turn.call = .ok s₁) :
    s₁.context.compositorName = some name := by
  obtain ⟨u, hturn, haction, hlabel, hrefusal⟩ := hopens
  obtain ⟨hin, hskip⟩ := Context.innermost_of_openBlocks hclosed
  obtain ⟨unread, hreads⟩ : ∃ rest,
      (Command.read s.context u.token .compositor).run u.reader =
        (.ok (.openCompositor name), rest) :=
    (read_compositor_iff hin).mpr hlabel
  rcases call_cases h with ⟨u', flow, rest, hunit, hdispatch⟩ | ⟨m, hmismatch, _⟩
  · cases hturn.symm.trans hunit
    have hd := dispatched b s u.action u.token u.reader
    rw [hdispatch] at hd
    rw [← haction] at hreads
    unfold refusal? at hrefusal
    cases hd with
    | skipped hskipped => omega
    | unread _ hread =>
      rw [hreads] at hread
      cases hread
    | ungranted _ hread hexecute =>
      simp only [if_neg (show ¬ 0 < s.context.skipDepth by omega), hread, hexecute] at hrefusal
      cases hrefusal
    | done _ hread hexecute =>
      rw [hreads] at hread
      cases hread
      obtain ⟨handle, s₂, _, rfl⟩ := execute_ok hexecute
      rfl
  · rw [hmismatch] at hturn
    cases hturn

/-- Any other step after which a block is open leaves the open compositor as it was. -/
theorem compositorName_call {turn : Turn} (h : s.call b turn.call = .ok s₁)
    (hopen : 0 < s₁.context.openBlocks) :
    s₁.context.compositorName = s.context.compositorName ∨
      ∃ name, s.context.openBlocks = 0 ∧ Step.Opens b ⟨s, turn⟩ name := by
  rcases call_cases h with ⟨u, flow, rest, rfl, hdispatch⟩ | ⟨m, rfl, rfl⟩
  · have hd := dispatched b s u.action u.token u.reader
    rw [hdispatch] at hd
    cases hd with
    | skipped _ => exact .inl rfl
    | unread _ _ => exact .inl rfl
    | ungranted _ _ hexecute =>
      left
      show Context.compositorName _ = _
      rw [← (execute_error hexecute).context]
      rfl
    | done hskip hread hexecute =>
      have hrefusal : s.refusal? b u = none := by
        simp only [refusal?, if_neg (show ¬ 0 < s.context.skipDepth by omega), hread, hexecute]
      obtain ⟨handle, s₂, _, rfl⟩ := execute_ok hexecute
      rcases compositorName_after (admits_of_read hread) hskip handle hopen with
        hsame | ⟨haction, hin, name, rfl⟩
      · exact .inl hsame
      · rw [haction] at hread
        refine .inr ⟨name, ?_, u, rfl, haction, ?_, hrefusal⟩
        · rw [Context.openBlocks, hin, hskip]
          rfl
        · exact (read_compositor_iff hin).mp ⟨_, hread⟩
  · exact .inl rfl

/-! ## The open compositor along a document -/

/-- The session keeps count of the open blocks and of the open compositor. -/
structure Attributed (b : Builder σ) (steps : List (Step σ)) (s : Session σ) : Prop where
  nested : s.context.Nested
  blocks : s.context.openBlocks = Step.blocks steps
  compositor : ∀ name, s.context.compositorName = some name ↔ CompositorOpen b steps name

theorem attributed_beginDocument (b : Builder σ) (d : Document) (s : Session σ) :
    Attributed b [] (s.beginDocument d) where
  nested := nested_initial _
  blocks := rfl
  compositor name := by
    constructor
    · intro h
      cases h
    · intro h
      generalize hsteps : ([] : List (Step σ)) = steps at h
      cases h with
      | opened _ _ => simp at hsteps
      | stays _ _ => simp at hsteps

/-- One step keeps it. -/
theorem Attributed.call {steps : List (Step σ)} {turn : Turn} (hs : Attributed b steps s)
    (h : s.call b turn.call = .ok s₁) : Attributed b (steps ++ [⟨s, turn⟩]) s₁ := by
  have hnested := (call_keeps h).2.1 hs.nested
  have hblocks : s₁.context.openBlocks = Step.blocks (steps ++ [⟨s, turn⟩]) := by
    rw [openBlocks_call h, hs.blocks, Step.blocks_snoc]
  refine ⟨hnested, hblocks, fun name => ⟨fun hname => ?_, fun hopen => ?_⟩⟩
  -- a name after the step was there before it, or this step has brought it
  · have hpos := hnested.openBlocks_of_name hname
    rcases compositorName_call h hpos with hsame | ⟨other, hclosed, hopens⟩
    · rw [hsame, hs.compositor] at hname
      exact .stays hname (by omega)
    · cases (compositorName_of_opens hclosed hopens h).symm.trans hname
      exact .opened (hs.blocks ▸ hclosed) hopens
  -- conversely the step opens the compositor, or it was open and a block still is
  · generalize hsteps : steps ++ [⟨s, turn⟩] = all at hopen hblocks
    cases hopen with
    | opened hclosed hopens =>
      obtain ⟨rfl, hstep⟩ := List.append_inj' hsteps rfl
      cases hstep
      exact compositorName_of_opens (hs.blocks.trans hclosed) hopens h
    | stays hopen hpos =>
      obtain ⟨rfl, hstep⟩ := List.append_inj' hsteps rfl
      cases hstep
      have hname := (hs.compositor name).mpr hopen
      have hbefore := hs.nested.openBlocks_of_name hname
      rcases compositorName_call h (by omega) with hsame | ⟨_, hclosed, _⟩
      · exact hsame.trans hname
      · omega

/-- So do many. -/
theorem Attributed.course {steps before : List (Step σ)} (hs : Attributed b before s)
    (h : Course b s steps s') : Attributed b (before ++ steps) s' := by
  induction h generalizing before with
  | done => simpa using hs
  | step hcall _ ih =>
    have hrest := ih (hs.call hcall)
    rwa [List.append_assoc] at hrest

end Session

/-! ## Documents -/

section
variable {σ : Type}

/-- What is reported of a document that is compiled in these steps: `ending` is the diagnostic for
    the end of the document, if there is one, and `s` the session after it. -/
structure Compiler.Reported (c : Compiler) (b : Builder σ) (d : Document) (builder : σ)
    (summary : Summary) (s : Session σ) (steps : List (Step σ)) (ending : Option Diagnostic) :
    Prop where
  /-- The document is begun, the session goes through the steps, and the document ends. -/
  course : ∃ s₁, Session.Course b ((Session.new c.group builder).beginDocument d) steps s₁ ∧
    s = s₁.endDocument
  /-- The steps are those of the events of the document, in their order, and are counted. -/
  heard : Handler.Heard c.language.lexicon.action? (c.language.events d.text.toList)
    (steps.map (Step.heard b))
    (Except.ok ⟨summary.statements, summary.actions, summary.mismatches, 0⟩ :
      Except (RunError Inconsistency) Summary)
  /-- What the steps report comes in their order, and the end of the document comes last. -/
  diagnostics : s.diagnostics = steps.filterMap (Step.report? b) ++ ending.toList
  /-- The end is reported exactly if blocks are open, and how many. -/
  isSome_ending : ending.isSome ↔ Step.blocks steps ≠ 0
  told_ending : ∀ x ∈ ending, x.kind = .syntaxMismatch ∧
    x.line = Session.lastLineOf d.text.toList ∧
    x.message = "Unexpected end of script: " ++ toString (Step.blocks steps) ++
      " block(s) still open."
  errors : summary.errors = s.diagnostics.length
  /-- There is a diagnostic for each mismatch, for each refused unit, and for the end. -/
  counted : summary.errors = summary.mismatches + steps.countP (Step.isRefused b) +
    if Step.blocks steps = 0 then 0 else 1
  document : ∀ x ∈ s.diagnostics, x.document = d.name
  /-- A diagnostic names the compositor that is open after the steps before it. -/
  compositor : ∀ before step after, steps = before ++ step :: after →
    ∀ x, step.report? b = some x → ∀ name, x.compositor = some name ↔ CompositorOpen b before name
  compositor_ending : ∀ x ∈ ending, ∀ name, x.compositor = some name ↔ CompositorOpen b steps name
  /-- Its line is that of the failure or of the token that begins the unit. -/
  line : ∀ step ∈ steps, ∀ x, step.report? b = some x →
    x.line = step.turn.line ∧ Text.IsPlace d.text.toList step.turn.offset x.line

namespace Session
variable {b : Builder σ} {s s₁ : Session σ}

/-- The turn of a step that is heard for the events of a text stands at a place of the text. -/
theorem isPlace_turn {l : Language Action} {text : List Char} {step : Step σ}
    (h : (Step.heard b step).IsOf (l.events text)) :
    Text.IsPlace text step.turn.offset step.turn.line := by
  obtain ⟨s, turn⟩ := step
  cases turn with
  | unit u =>
    cases h with
    | unit hstatement htoken => exact Language.isPlace_token hstatement htoken
  | mismatch m =>
    cases h with
    | mismatch hm => exact Language.isPlace_mismatch hm

/-- What the end of a document reports. -/
theorem exists_ending (s : Session σ) :
    ∃ ending : Option Diagnostic, s.endDocument.diagnostics = s.diagnostics ++ ending.toList ∧
      (ending.isSome ↔ s.context.openBlocks ≠ 0) ∧
      ∀ x ∈ ending, x = s.diagnostic .syntaxMismatch s.lastLine
        ("Unexpected end of script: " ++ toString s.context.openBlocks ++
          " block(s) still open.") := by
  rw [endDocument_diagnostics]
  by_cases hclosed : s.context.openBlocks = 0
  · exact ⟨none, by rw [if_pos hclosed]; rfl, by simp [hclosed], nofun⟩
  · refine ⟨some _, by rw [if_neg hclosed]; rfl, by simp [hclosed], ?_⟩
    rintro x ⟨⟩
    rfl

/-- A compilation that gives a summary has carried out all events of its document. -/
theorem runEvents_of_compile {c : Compiler} {d : Document} {builder : σ} {summary : Summary}
    (h : (c.compile b d builder).1 = .ok summary) :
    ∃ counted s₁, (handler b).runEvents c.language.lexicon.action?
        (c.language.events d.text.toList) ⟨0, 0, 0, 0⟩ ((new c.group builder).beginDocument d) =
          (.ok counted, s₁) ∧
      (c.compile b d builder).2 = s₁.endDocument ∧
      summary = { counted with errors := s₁.endDocument.errors } := by
  have hbegun : (handler b).beginDocument d (new c.group builder) =
      (new c.group builder).beginDocument d := rfl
  rcases hrun : (handler b).runEvents c.language.lexicon.action?
      (c.language.events d.text.toList) ⟨0, 0, 0, 0⟩ ((new c.group builder).beginDocument d) with
    ⟨error | counted, s₁⟩
  · simp [Compiler.compile, Language.run, hbegun, hrun, Except.map] at h
  · refine ⟨counted, s₁, rfl, ?_, ?_⟩
    · simp only [Compiler.compile, Language.run, hbegun, hrun]
      rfl
    · simp only [Compiler.compile, Language.run, hbegun, hrun, Except.map] at h
      exact (Except.ok.inj h).symm

/-- What is reported at a step of a document names the document and the compositor that is open
    after the steps before it. -/
theorem Course.of_report? {d : Document} {steps before after : List (Step σ)} {step : Step σ}
    {x : Diagnostic} (h : Course b (s.beginDocument d) steps s₁)
    (hsplit : steps = before ++ step :: after) (hreport : step.report? b = some x) :
    x.document = d.name ∧ ∀ name, x.compositor = some name ↔ CompositorOpen b before name := by
  obtain ⟨hdocument, hcompositor, _⟩ := Step.of_report? b hreport
  rw [hdocument, hcompositor]
  rw [hsplit] at h
  have hbefore := h.split
  exact ⟨hbefore.keeps.1.document,
    ((attributed_beginDocument b d s).course hbefore).compositor⟩

/-- There is a diagnostic for each mismatch, for each refused unit, and for the end if blocks are
    open. -/
theorem length_diagnostics {steps : List (Step σ)} {ending : Option Diagnostic}
    (hending : ending.isSome ↔ Step.blocks steps ≠ 0) :
    (steps.filterMap (Step.report? b) ++ ending.toList).length =
      steps.countP Step.isMismatch + steps.countP (Step.isRefused b) +
        if Step.blocks steps = 0 then 0 else 1 := by
  rw [List.length_append, Step.length_reports]
  congr 1
  cases ending with
  | none =>
    have hclosed : Step.blocks steps = 0 := by simpa using hending
    rw [if_pos hclosed]
    rfl
  | some x =>
    have hopen : Step.blocks steps ≠ 0 := by simpa using hending
    rw [if_neg hopen]
    rfl

/-- The errors that a summary counts are the diagnostics that were reported: one for each mismatch,
    one for each unit that was refused, and one if blocks are still open at the end.  They come in
    the order of the events, and each tells its document, the compositor that was open and its
    line. -/
theorem compile_reported (c : Compiler) (b : Builder σ) (d : Document) (builder : σ)
    {summary : Summary} (h : (c.compile b d builder).1 = .ok summary) :
    ∃ steps ending,
      c.Reported b d builder summary (c.compile b d builder).2 steps ending := by
  obtain ⟨counted, s₁, hrun, hs, hsummary⟩ := runEvents_of_compile h
  obtain ⟨steps, total, hcourse, hheard, htotal, hmismatches⟩ := course_of_runEvents hrun
  rw [Summary.zero_add] at htotal
  obtain ⟨ending, hends, hisSome, hending⟩ := s₁.exists_ending
  have hattributed : Attributed b steps s₁ :=
    (attributed_beginDocument b d (new c.group builder)).course hcourse
  obtain ⟨hkeeps, _, hcounts⟩ := hcourse.keeps
  rw [hattributed.blocks] at hisSome
  have hdiagnostics : s₁.endDocument.diagnostics =
      steps.filterMap (Step.report? b) ++ ending.toList := by
    rw [hends, hcourse.diagnostics_eq]
    rfl
  have herrors : summary.errors = s₁.endDocument.diagnostics.length := by
    rw [hsummary]
    exact (hcounts rfl).endDocument
  have hmismatch : summary.mismatches = steps.countP Step.isMismatch := by
    rw [hsummary, htotal, hmismatches]
  have hheard : Handler.Heard c.language.lexicon.action? (c.language.events d.text.toList)
      (steps.map (Step.heard b))
      (Except.ok ⟨summary.statements, summary.actions, summary.mismatches, 0⟩ :
        Except (RunError Inconsistency) Summary) := by
    -- the events count no errors, which are counted when the document has ended
    have hzero : total.errors = 0 := congrArg Summary.errors (hheard.summary_eq rfl)
    rw [hsummary, htotal, ← hzero]
    exact hheard
  have hending : ∀ x ∈ ending, x = s₁.diagnostic .syntaxMismatch
      (lastLineOf d.text.toList) ("Unexpected end of script: " ++ toString (Step.blocks steps) ++
        " block(s) still open.") := by
    intro x hx
    rw [hending x hx, hattributed.blocks, hkeeps.lastLine]
    rfl
  rw [hs]
  refine ⟨steps, ending, ⟨s₁, hcourse, rfl⟩, hheard, hdiagnostics, hisSome, ?_, herrors, ?_, ?_,
    ?_, ?_, ?_⟩
  · intro x hx
    rw [hending x hx]
    exact ⟨rfl, rfl, rfl⟩
  · rw [herrors, hdiagnostics, hmismatch]
    exact length_diagnostics hisSome
  · intro x hx
    rw [hdiagnostics, List.mem_append] at hx
    rcases hx with hx | hx
    · obtain ⟨step, hstep, hreport⟩ := List.mem_filterMap.mp hx
      obtain ⟨before, after, hsplit⟩ := List.append_of_mem hstep
      exact (hcourse.of_report? hsplit hreport).1
    · rw [hending x (by simpa using hx)]
      exact hkeeps.document
  · intro before step after hsplit x hreport
    exact (hcourse.of_report? hsplit hreport).2
  · intro x hx name
    rw [hending x hx]
    exact hattributed.compositor name
  · intro step hstep x hreport
    have hline := (Step.of_report? b hreport).2.2
    refine ⟨hline, ?_⟩
    rw [hline]
    exact isPlace_turn (hheard.isOf _ (List.mem_map_of_mem hstep))

/-- A mismatch in a compositor, and a pass at top level that is not closed. -/
theorem compile_reported_pass :
    let c := Compiler.standard true "General"
    let d : Document :=
      ⟨"open.compositor", "compositor P \x7b\nfoo\n\x7d\npass render_quad \x7b\n"⟩
    let outcome := c.compile Registry.builder d (Registry.empty .standard)
    outcome.2.diagnostics.map (fun x => (x.line, x.compositor)) =
        [(2, some "P"), (4, none), (4, none)] ∧
      ∃ steps ending,
        c.Reported Registry.builder d (Registry.empty .standard) ⟨3, 3, 1, 3⟩ outcome.2 steps
          ending := by
  intro c d outcome
  have hcompiled : outcome.2.diagnostics.map (fun x => (x.line, x.compositor)) =
      [(2, some "P"), (4, none), (4, none)] ∧ outcome.1.toOption = some ⟨3, 3, 1, 3⟩ := by
    decide +kernel
  exact ⟨hcompiled.1,
    compile_reported c Registry.builder d (Registry.empty .standard) (ok_of_toOption hcompiled.2)⟩

end Session
end
end Compositing.Script
