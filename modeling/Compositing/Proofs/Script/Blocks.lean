import Compositing.Proofs.Script.Dispatch
import Compositing.Proofs.Script.Reading
import Compositing.Scene.Registry

/-! # Open blocks as a counter

    How many blocks are open is kept in two fields of a context: the innermost
    section and the number of refused blocks still to be closed.  Their sum is
    a plain counter over the actions: an opener raises it, granted or refused
    alike, and a closing brace lowers it unless it is 0.  A stray brace is a
    closing brace met at 0, and what the end of a script reports is the value
    of the counter. -/

namespace Compositing

/-- The number of open blocks after a unit of an action. -/
def Action.count (a : Action) (blocks : Nat) : Nat :=
  if a.opensBlock then blocks + 1 else if a = .closeBrace then blocks - 1 else blocks

namespace Script

/-! ## The counter -/

/-- What a session is told between the beginning and the end of a document. -/
inductive Call where
  | dispatch (action : Action) (token : Token) (arguments : Arguments)
  | mismatch (mismatch : Mismatch)

namespace Call

/-- The number of open blocks after a call. -/
def count : Call → Nat → Nat
  | .dispatch action _ _, blocks => action.count blocks
  | .mismatch _, blocks => blocks

/-- Is the call a closing brace? -/
def closes : Call → Bool
  | .dispatch action _ _ => action == .closeBrace
  | .mismatch _ => false

/-- The value of the counter after calls, from 0 on. -/
def blocks (calls : List Call) : Nat := calls.foldl (fun blocks call => call.count blocks) 0

end Call

namespace Session
variable {σ : Type}

/-- The session after a call, unless a dispatch ends the document. -/
def call (b : Builder σ) (s : Session σ) : Call → Except Inconsistency (Session σ)
  | .dispatch action token arguments =>
    match s.dispatch b action token arguments with
    | (.ok _, _, s) => .ok s
    | (.error inconsistency, _, _) => .error inconsistency
  | .mismatch m => .ok (s.mismatch m)

/-- The session after calls, unless a dispatch ends the document. -/
def calls (b : Builder σ) : List Call → Session σ → Except Inconsistency (Session σ)
  | [], s => .ok s
  | call :: rest, s => s.call b call >>= calls b rest

/-- The session after a call, also after one that would end the document. -/
def hear (b : Builder σ) (s : Session σ) : Call → Session σ
  | .dispatch action token arguments => (s.dispatch b action token arguments).2.2
  | .mismatch m => s.mismatch m

/-- The session after calls, whatever they are answered. -/
def hearAll (b : Builder σ) (s : Session σ) (cs : List Call) : Session σ := cs.foldl (hear b) s

end Session

/-! ## One command -/

section
variable {c : Context} (handle : Handle)

theorem openBlocks_openCompositor (name : String) (h : c.innermost = .none) :
    (c.openCompositor handle name).openBlocks = c.openBlocks + 1 := by
  simp [Context.openBlocks, Context.openCompositor, h, Section.depth]
  omega

theorem openBlocks_openTechnique (h : c.innermost = .compositor) :
    (c.openTechnique handle).openBlocks = c.openBlocks + 1 := by
  simp [Context.openBlocks, Context.openTechnique, h, Section.depth]
  omega

theorem openBlocks_openTarget (output : Bool) (h : c.innermost = .technique) :
    (c.openTarget handle output).openBlocks = c.openBlocks + 1 := by
  simp [Context.openBlocks, Context.openTarget, h, Section.depth]
  omega

theorem openBlocks_openPass (h : c.innermost = .target) :
    (c.openPass handle).openBlocks = c.openBlocks + 1 := by
  simp [Context.openBlocks, Context.openPass, h, Section.depth]
  omega

theorem depth_parent {within : Section} (h : within ≠ .none) :
    within.parent.depth + 1 = within.depth := by
  cases within <;> first | rfl | exact absurd rfl h

@[simp] theorem close_skipDepth (c : Context) : c.close.skipDepth = c.skipDepth := by
  unfold Context.close
  cases c.innermost <;> rfl

theorem openBlocks_close (h : c.innermost ≠ .none) :
    c.close.openBlocks = c.openBlocks - 1 := by
  have hdepth := depth_parent h
  show c.innermost.parent.depth + c.close.skipDepth = c.innermost.depth + c.skipDepth - 1
  rw [close_skipDepth]
  omega

end

/-- A granted command counts the block that its action opens or closes. -/
theorem openBlocks_after {context : Context} {action : Action} {command : Command}
    (h : Admits context action command) (handle : Handle) :
    (command.after handle context).openBlocks = action.count context.openBlocks := by
  cases action with
  | closeBrace =>
    obtain ⟨hin, rfl⟩ := h
    exact openBlocks_close hin
  | compositor =>
    obtain ⟨hin, name, rfl⟩ := h
    exact openBlocks_openCompositor handle name hin
  | technique =>
    obtain ⟨hin, parent, _, rfl⟩ := h
    exact openBlocks_openTechnique handle hin
  | target =>
    obtain ⟨hin, parent, output, _, rfl⟩ := h
    exact openBlocks_openTarget handle false hin
  | targetOutput =>
    obtain ⟨hin, parent, _, rfl⟩ := h
    exact openBlocks_openTarget handle true hin
  | pass =>
    obtain ⟨hin, parent, type, _, rfl⟩ := h
    exact openBlocks_openPass handle hin
  | texture =>
    obtain ⟨_, technique, texture, _, rfl⟩ := h
    rfl
  | _ =>
    obtain ⟨_, target, attr, _, _, rfl⟩ | ⟨_, pass, attr, _, rfl⟩ := h
    · rfl
    · rfl

/-! ## Messages -/

/-- The wordings of the refusals other than a stray brace begin with no `U`. -/
theorem head_message_ne {refusal : Refusal} (h : refusal ≠ .strayBrace) :
    refusal.message.toList.head? ≠ some 'U' := by
  cases refusal with
  | strayBrace => exact absurd rfl h
  | misplaced keyword within output =>
    show ("'" ++ _ ++ "' is not allowed " ++ within.location output).toList.head? ≠ _
    rw [String.toList_append, String.toList_append, String.toList_append]
    simp
  | argument error =>
    cases error with
    | exhausted expected =>
      show ("expected " ++ expected.text ++ " but the statement ended").toList.head? ≠ _
      rw [String.toList_append, String.toList_append]
      simp
    | unexpectedKind expected found =>
      show ("expected " ++ expected.text ++ " but found token " ++ toString found).toList.head? ≠ _
      rw [String.toList_append, String.toList_append, String.toList_append]
      simp
  | builder error =>
    cases error with
    | duplicateName kind name =>
      show (kind.name ++ " '" ++ name ++ "' already exists").toList.head? ≠ _
      rw [String.toList_append, String.toList_append, String.toList_append]
      cases kind <;> simp [NamedKind.name]
    | unknownHandle handle =>
      show ("unknown object handle " ++ toString handle.index).toList.head? ≠ _
      rw [String.toList_append]
      simp
    | invalidChild parent child =>
      show ("a " ++ parent.name ++ " cannot own a " ++ child.name).toList.head? ≠ _
      rw [String.toList_append, String.toList_append, String.toList_append]
      simp
    | invalidAttribute attr object =>
      show ("attribute " ++ attr.name ++ " does not apply to a " ++ object.name).toList.head? ≠ _
      rw [String.toList_append, String.toList_append, String.toList_append]
      simp

/-- Only a stray brace is worded as one. -/
theorem message_eq_strayBrace_iff {refusal : Refusal} :
    refusal.message = Refusal.strayBrace.message ↔ refusal = .strayBrace := by
  constructor
  · intro h
    refine Classical.byContradiction fun hne => head_message_ne hne ?_
    rw [h]
    rfl
  · rintro rfl
    rfl

/-- No mismatch is worded as a stray brace. -/
theorem mismatch_message_ne (m : Mismatch) : m.message ≠ Refusal.strayBrace.message := by
  intro h
  have hhead : m.message.toList.head? = some 'u' := by
    unfold Mismatch.message
    cases m.nearby with
    | none => rfl
    | some word =>
      show ("unexpected '" ++ word ++ "'").toList.head? = _
      rw [String.toList_append, String.toList_append]
      simp
  rw [h] at hhead
  exact absurd hhead (by decide)

/-! ## One call -/

namespace Session
variable {σ : Type} {b : Builder σ} {s s' : Session σ}

/-- A closing brace is refused as a stray brace, and only where no block is open. -/
theorem read_closeBrace {context : Context} {token : Token} {arguments rest : Arguments}
    {failure : Failure}
    (h : (Command.read context token .closeBrace).run arguments = (.error failure, rest)) :
    failure = .refused .strayBrace ∧ context.innermost = .none := by
  simp only [Command.read] at h
  split at h
  · exact ⟨by cases h; rfl, by assumption⟩
  · cases h

/-- A refused unit counts like a granted one. -/
theorem openBlocks_refuse {action : Action} {token : Token} {refusal : Refusal}
    (hskip : s.context.skipDepth = 0)
    (hclose : action = .closeBrace → s.context.innermost = .none) :
    (s.refuse action token refusal).context.openBlocks =
      action.count s.context.openBlocks := by
  simp only [refuse, report_context, Context.openBlocks, Action.count]
  by_cases hopens : action.opensBlock = true
  · simp [hopens, hskip]
  · by_cases hbrace : action = .closeBrace
    · simp [hbrace, hclose hbrace, hskip, Action.opensBlock, Section.depth]
    · simp [hopens, hbrace]

theorem openBlocks_skip {action : Action} (hskip : 0 < s.context.skipDepth) :
    (s.skip action).context.openBlocks = action.count s.context.openBlocks := by
  simp only [skip, Context.openBlocks, Action.count]
  split
  · omega
  · split
    · omega
    · rfl

/-- The only refusals by the builder are those of actions other than a closing brace. -/
theorem not_closeBrace_of_ungranted {action : Action} {command : Command} {s₁ : Session σ}
    {error : BuilderError} (hadmits : Admits s.context action command)
    (hexecute : s.execute b command = (.error error, s₁)) : action ≠ .closeBrace := by
  rintro rfl
  obtain ⟨_, rfl⟩ := hadmits
  cases hexecute

/-- A dispatch that does not end the document counts the block of its action. -/
theorem openBlocks_dispatch {action : Action} {token : Token} {arguments rest : Arguments}
    {flow : Flow} (h : s.dispatch b action token arguments = (.ok flow, rest, s')) :
    s'.context.openBlocks = action.count s.context.openBlocks := by
  have hd := dispatched b s action token arguments
  rw [h] at hd
  cases hd with
  | skipped hskip => exact openBlocks_skip hskip
  | unread hskip hread =>
    refine openBlocks_refuse hskip fun haction => ?_
    subst haction
    exact (read_closeBrace hread).2
  | ungranted hskip hread hexecute =>
    have hrequested := execute_error hexecute
    have haction := not_closeBrace_of_ungranted (admits_of_read hread) hexecute
    rw [openBlocks_refuse (by rw [hrequested.context, hskip])
      (fun h => absurd h haction), hrequested.context]
  | done hskip hread hexecute =>
    obtain ⟨handle, s₁, _, rfl⟩ := execute_ok hexecute
    exact openBlocks_after (admits_of_read hread) handle

/-- How many of the diagnostics are worded as a stray brace. -/
def strayBraces (diagnostics : List Diagnostic) : Nat :=
  diagnostics.countP (·.message = "Unexpected terminating brace.")

/-- A report of a refusal other than a stray brace counts for nothing. -/
theorem strayBraces_refusal (s : Session σ) (line : Nat) {refusal : Refusal}
    (h : refusal ≠ .strayBrace) :
    strayBraces [s.diagnostic refusal.kind line refusal.message] = 0 := by
  simp [strayBraces, diagnostic, ← message_strayBrace, message_eq_strayBrace_iff, h]

/-- A dispatch reports a stray brace exactly if it is a closing brace and no block is open. -/
theorem strayBraces_dispatch {action : Action} {token : Token} {arguments rest : Arguments}
    {flow : Flow} (h : s.dispatch b action token arguments = (.ok flow, rest, s')) :
    ∃ new, s'.diagnostics = s.diagnostics ++ new ∧
      strayBraces new =
        if action = .closeBrace ∧ s.context.openBlocks = 0 then 1 else 0 := by
  have hd := dispatched b s action token arguments
  rw [h] at hd
  cases hd with
  | skipped hskip =>
    -- what is skipped is a block, so one is open
    refine ⟨[], by simp, ?_⟩
    rw [if_neg]
    · rfl
    · simp only [Context.openBlocks]
      omega
  | unread hskip hread =>
    rename_i refusal
    refine ⟨_, refuse_diagnostics s action token refusal, ?_⟩
    by_cases haction : action = .closeBrace
    · subst haction
      obtain ⟨hrefusal, hin⟩ := read_closeBrace hread
      cases hrefusal
      simp [strayBraces, diagnostic, Context.openBlocks, hin, hskip, Section.depth,
        message_strayBrace]
    · have harises := arises_of_read haction _ _ _ hread
      have hne : refusal ≠ .strayBrace := by
        rintro rfl
        exact harises
      rw [strayBraces_refusal s token.line hne, if_neg (fun h => haction h.1)]
  | ungranted hskip hread hexecute =>
    have hrequested := execute_error hexecute
    have haction := not_closeBrace_of_ungranted (admits_of_read hread) hexecute
    refine ⟨_, by rw [refuse_diagnostics, hrequested.diagnostics], ?_⟩
    rw [strayBraces_refusal _ token.line (by simp), if_neg (fun h => haction h.1)]
  | done hskip hread hexecute =>
    obtain ⟨handle, s₁, hrequested, rfl⟩ := execute_ok hexecute
    refine ⟨[], ?_, ?_⟩
    · rw [List.append_nil]
      exact hrequested.diagnostics
    · -- a brace that is granted closes a block, which was open
      rw [if_neg]
      · rfl
      · rintro ⟨rfl, hopen⟩
        have hdepth := depth_parent (admits_of_read hread).1
        simp only [Context.openBlocks] at hopen
        omega

/-- A call that does not end the document counts the block it opens or closes. -/
theorem openBlocks_call {call : Call} (h : s.call b call = .ok s') :
    s'.context.openBlocks = call.count s.context.openBlocks := by
  cases call with
  | mismatch m =>
    cases h
    rfl
  | dispatch action token arguments =>
    rcases hd : s.dispatch b action token arguments with ⟨_ | flow, rest, s₁⟩
    · simp [Session.call, hd] at h
    · simp only [Session.call, hd, Except.ok.injEq] at h
      rw [← h]
      exact openBlocks_dispatch hd

/-- A call reports a stray brace exactly if it is a closing brace and no block is open. -/
theorem strayBraces_call {call : Call} (h : s.call b call = .ok s') :
    ∃ new, s'.diagnostics = s.diagnostics ++ new ∧
      strayBraces new = if call.closes ∧ s.context.openBlocks = 0 then 1 else 0 := by
  cases call with
  | mismatch m =>
    cases h
    refine ⟨_, report_diagnostics s _ m.line m.message, ?_⟩
    simp [strayBraces, diagnostic, Call.closes, ← message_strayBrace, mismatch_message_ne]
  | dispatch action token arguments =>
    rcases hd : s.dispatch b action token arguments with ⟨_ | flow, rest, s₁⟩
    · simp [Session.call, hd] at h
    · simp only [Session.call, hd, Except.ok.injEq] at h
      rw [← h]
      simpa [Call.closes] using strayBraces_dispatch hd

/-! ## Runs -/

theorem calls_append (before after : List Call) :
    calls b (before ++ after) s = calls b before s >>= calls b after := by
  induction before generalizing s with
  | nil => rfl
  | cons call rest ih =>
    simp only [List.cons_append, calls]
    cases s.call b call with
    | error inconsistency => rfl
    | ok s₁ => exact ih

theorem hearAll_append (b : Builder σ) (s : Session σ) (before after : List Call) :
    s.hearAll b (before ++ after) = (s.hearAll b before).hearAll b after :=
  List.foldl_append

/-- The calls of a run that does not end the document, taken at one of them. -/
theorem calls_split {before after : List Call} {call : Call}
    (h : calls b (before ++ call :: after) s = .ok s') :
    ∃ s₁ s₂, calls b before s = .ok s₁ ∧ s₁.call b call = .ok s₂ ∧ calls b after s₂ = .ok s' := by
  rw [calls_append] at h
  cases hbefore : calls b before s with
  | error inconsistency =>
    rw [hbefore] at h
    cases h
  | ok s₁ =>
    rw [hbefore] at h
    have h : (s₁.call b call >>= calls b after) = .ok s' := h
    cases hcall : s₁.call b call with
    | error inconsistency =>
      rw [hcall] at h
      cases h
    | ok s₂ =>
      rw [hcall] at h
      exact ⟨s₁, s₂, rfl, hcall, h⟩

/-- From any session on, the calls of a run move the number of open blocks like the counter. -/
theorem openBlocks_calls {cs : List Call} (h : calls b cs s = .ok s') :
    s'.context.openBlocks =
      cs.foldl (fun blocks call => call.count blocks) s.context.openBlocks := by
  induction cs generalizing s with
  | nil =>
    cases h
    rfl
  | cons call rest ih =>
    simp only [calls] at h
    cases hcall : s.call b call with
    | error inconsistency =>
      rw [hcall] at h
      cases h
    | ok s₁ =>
      rw [hcall] at h
      rw [ih h, openBlocks_call hcall, List.foldl_cons]

/-- The end of a document reports the open blocks, if there are any. -/
theorem endDocument_diagnostics (s : Session σ) :
    s.endDocument.diagnostics = s.diagnostics ++
      if s.context.openBlocks = 0 then []
      else [s.diagnostic .syntaxMismatch s.lastLine
        ("Unexpected end of script: " ++ toString s.context.openBlocks ++
          " block(s) still open.")] := by
  unfold endDocument
  cases s.context.openBlocks with
  | zero => simp
  | succ count => simp [report_diagnostics]

/-- The blocks open after the calls of a document are the value of the counter.  A stray brace
    is reported exactly by the closing braces that meet the counter at 0, once by each, and
    the end of the document reports the value of the counter, unless it is 0. -/
theorem openBlocks_eq_blocks (b : Builder σ) (d : Document) (s s' : Session σ)
    (cs : List Call) (h : calls b cs (s.beginDocument d) = .ok s') :
    s'.context.openBlocks = Call.blocks cs ∧
    (∀ before call after, cs = before ++ call :: after →
      ∃ s₁ s₂ new, calls b before (s.beginDocument d) = .ok s₁ ∧ s₁.call b call = .ok s₂ ∧
        calls b after s₂ = .ok s' ∧ s₂.diagnostics = s₁.diagnostics ++ new ∧
        strayBraces new = if call.closes ∧ Call.blocks before = 0 then 1 else 0) ∧
    s'.endDocument.diagnostics = s'.diagnostics ++
      if Call.blocks cs = 0 then []
      else [s'.diagnostic .syntaxMismatch s'.lastLine
        ("Unexpected end of script: " ++ toString (Call.blocks cs) ++
          " block(s) still open.")] := by
  have hblocks : s'.context.openBlocks = Call.blocks cs := openBlocks_calls h
  refine ⟨hblocks, ?_, ?_⟩
  · rintro before call after rfl
    obtain ⟨s₁, s₂, hbefore, hcall, hafter⟩ := calls_split h
    obtain ⟨new, hnew, hcount⟩ := strayBraces_call hcall
    refine ⟨s₁, s₂, new, hbefore, hcall, hafter, hnew, ?_⟩
    rw [hcount, openBlocks_calls hbefore]
    rfl
  · rw [endDocument_diagnostics, hblocks]

/-- A refused technique and its brace, a stray brace, and a compositor that stays open. -/
theorem openBlocks_eq_blocks_misplaced :
    let token := fun keyword : Keyword => Token.mk (.keyword keyword.id) 0 1
    let cs : List Call :=
      [.dispatch .technique (token .technique) ⟨[], 1⟩,
       .dispatch .closeBrace (token .closeBrace) ⟨[], 1⟩,
       .dispatch .closeBrace (token .closeBrace) ⟨[], 1⟩,
       .dispatch .compositor (token .compositor) ⟨[⟨.label "C", 0, 1⟩], 1⟩]
    ∃ s', calls Registry.builder cs
        ((Session.new "General" (Registry.empty .standard)).beginDocument ⟨"d", ""⟩) = .ok s' ∧
      s'.context.openBlocks = 1 ∧ Call.blocks cs = 1 := by
  intro token cs
  exact ⟨_, rfl, (openBlocks_eq_blocks Registry.builder ⟨"d", ""⟩
    (Session.new "General" (Registry.empty .standard)) _ cs rfl).1, rfl⟩

end Session

end Script
end Compositing
