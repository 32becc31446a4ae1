import Compositing.Proofs.Language.Running
import Compositing.Proofs.Script.Reading
import Compositing.Proofs.Script.Skipping

/-! # Scripts further down

    A unit is read by the kinds of its tokens: where they stand only tells the
    line of what is reported.  So a script that stands further down is carried
    out as it is here, with every line that is reported moved. -/

namespace Compositing

/-- The diagnostic further down. -/
def Diagnostic.moved (lines : Nat) (d : Diagnostic) : Diagnostic := { d with line := d.line + lines }

theorem Diagnostic.map_moved_zero (ds : List Diagnostic) : ds.map (moved 0) = ds := List.map_id ds

/-- The arguments further down. -/
def Arguments.moved (bytes lines : Nat) (a : Arguments) : Arguments :=
  ⟨a.tokens.map (Token.moved bytes lines), a.endLine + lines⟩

theorem Arguments.takeIf_moved (bytes lines id : Nat) (a : Arguments) :
    takeIf id (a.moved bytes lines) = ((takeIf id a).1, (takeIf id a).2.moved bytes lines) := by
  have hpeek : (a.moved bytes lines).peekId? = a.peekId? := by
    obtain ⟨_ | ⟨token, rest⟩, endLine⟩ := a <;> rfl
  unfold takeIf
  rw [hpeek]
  split
  · simp [moved]
  · rfl

namespace Script

/-- The inconsistency further down. -/
def Inconsistency.moved (lines : Nat) (i : Inconsistency) : Inconsistency :=
  { i with line := i.line + lines }

/-- The failure further down. -/
def Failure.moved (lines : Nat) : Failure → Failure
  | .refused refusal => .refused refusal
  | .inconsistent inconsistency => .inconsistent (inconsistency.moved lines)

/-! ## Reading values -/

namespace Reading

/-- The second reading reads arguments further down as the first reads them here. -/
def Moves {α : Type} (bytes lines : Nat) (here there : Reading α) : Prop :=
  ∀ arguments : Arguments, there.run (arguments.moved bytes lines) =
    ((here.run arguments).1.mapError (Failure.moved lines),
      (here.run arguments).2.moved bytes lines)

variable {α β : Type} {bytes lines : Nat}

theorem moves_pure (value : α) : Moves bytes lines (pure value) (pure value) := fun _ => rfl

theorem moves_throw (failure : Failure) :
    Moves bytes lines (throw failure : Reading α) (throw (failure.moved lines)) := fun _ => rfl

theorem moves_bind {first first' : Reading α} {next next' : α → Reading β}
    (hfirst : Moves bytes lines first first')
    (hnext : ∀ value, Moves bytes lines (next value) (next' value)) :
    Moves bytes lines (first >>= next) (first' >>= next') := by
  intro arguments
  rw [run_bind, run_bind, hfirst arguments]
  rcases first.run arguments with ⟨failure | value, rest⟩
  · rfl
  · exact hnext value rest

theorem moves_ofArguments {read : Arguments → Except ArgumentError (α × Arguments)}
    (h : ∀ arguments : Arguments, read (arguments.moved bytes lines) =
      (read arguments).map fun (value, rest) => (value, rest.moved bytes lines)) :
    Moves bytes lines (ofArguments read) (ofArguments read) := by
  intro arguments
  show ofArguments read (arguments.moved bytes lines) =
    ((ofArguments read arguments).1.mapError (Failure.moved lines),
      (ofArguments read arguments).2.moved bytes lines)
  unfold ofArguments
  rw [h]
  rcases read arguments with error | ⟨value, rest⟩ <;> rfl

theorem moves_label : Moves bytes lines label label := by
  refine moves_ofArguments fun arguments => ?_
  rcases arguments with ⟨_ | ⟨⟨kind, offset, line⟩, rest⟩, endLine⟩
  · rfl
  · cases kind <;> rfl

theorem moves_number : Moves bytes lines number number := by
  refine moves_ofArguments fun arguments => ?_
  rcases arguments with ⟨_ | ⟨⟨kind, offset, line⟩, rest⟩, endLine⟩
  · rfl
  · cases kind <;> rfl

theorem moves_integer32 : Moves bytes lines integer32 integer32 :=
  moves_bind moves_number fun _ => moves_pure _

theorem moves_integer8 : Moves bytes lines integer8 integer8 :=
  moves_bind moves_number fun _ => moves_pure _

theorem moves_single : Moves bytes lines single single :=
  moves_bind moves_number fun _ => moves_pure _

theorem moves_lengthOr (keyword : Keyword) :
    Moves bytes lines (lengthOr keyword) (lengthOr keyword) := by
  have htake : Moves bytes lines
      (modifyGet (Arguments.takeIf keyword.id) : StateM Arguments Bool)
      (modifyGet (Arguments.takeIf keyword.id) : StateM Arguments Bool) := by
    intro arguments
    show (Except.ok (Arguments.takeIf keyword.id (arguments.moved bytes lines)).1,
      (Arguments.takeIf keyword.id (arguments.moved bytes lines)).2) = _
    rw [Arguments.takeIf_moved]
    rfl
  refine moves_bind htake fun taken => ?_
  cases taken with
  | true => exact moves_pure _
  | false => exact moves_integer32

theorem moves_keyword (line : Nat) :
    Moves bytes lines (keyword line) (keyword (line + lines)) := by
  have hid : Moves bytes lines (ofArguments Arguments.nextId) (ofArguments Arguments.nextId) := by
    refine moves_ofArguments fun arguments => ?_
    rcases arguments with ⟨_ | ⟨token, rest⟩, endLine⟩ <;> rfl
  refine moves_bind hid fun id => ?_
  cases Keyword.ofId? id with
  | none => exact moves_throw _
  | some keyword => exact moves_pure keyword

theorem moves_valueOf (role : Keyword.Role) (value? : Keyword → Option α) (line : Nat) :
    Moves bytes lines (valueOf role value? line) (valueOf role value? (line + lines)) := by
  refine moves_bind (moves_keyword line) fun keyword => ?_
  cases value? keyword with
  | none => exact moves_throw _
  | some value => exact moves_pure value

theorem moves_buffers (line count : Nat) :
    Moves bytes lines (buffers line count) (buffers (line + lines) count) := by
  induction count with
  | zero => exact moves_pure _
  | succ count ih =>
    exact moves_bind (moves_valueOf _ _ line) fun _ => moves_bind ih fun _ => moves_pure _

end Reading

/-! ## Reading units -/

section
open Reading
variable {bytes lines : Nat} (c : Context) (token : Token)

theorem moves_requireIn (within : Section) :
    Moves bytes lines (requireIn c token within)
      (requireIn c (token.moved bytes lines) within) := by
  unfold requireIn
  split
  · exact moves_pure _
  · exact moves_throw (misplaced c token)

theorem moves_handleOf (within : Section) :
    Moves bytes lines (handleOf c token within)
      (handleOf c (token.moved bytes lines) within) := by
  unfold handleOf Context.handle
  cases c.handle? within with
  | none => exact moves_throw _
  | some handle => exact moves_pure handle

theorem moves_objectOf (within : Section) :
    Moves bytes lines (objectOf c token within)
      (objectOf c (token.moved bytes lines) within) :=
  moves_bind (moves_requireIn c token within) fun _ => moves_handleOf c token within

theorem moves_setPass (attr : PassAttribute) :
    Moves bytes lines (setPass c token attr) (setPass c (token.moved bytes lines) attr) :=
  moves_bind (moves_objectOf c token .pass) fun _ => moves_pure _

theorem moves_setTarget (attr : TargetAttribute) :
    Moves bytes lines (setTarget c token attr) (setTarget c (token.moved bytes lines) attr) := by
  refine moves_bind (moves_requireIn c token .target) fun _ => ?_
  have hset : Moves bytes lines
      (do return Command.set (← handleOf c token .target) (.target attr))
      (do return Command.set (← handleOf c (token.moved bytes lines) .target) (.target attr)) :=
    moves_bind (moves_handleOf c token .target) fun _ => moves_pure _
  cases c.outputTarget with
  | false => exact hset
  | true => cases attr <;> first | exact hset | exact moves_throw (misplaced c token)

theorem moves_readInput :
    Moves bytes lines (readInput c token) (readInput c (token.moved bytes lines)) := by
  unfold readInput
  cases c.innermost with
  | target => exact moves_bind (moves_valueOf _ _ _) fun _ => moves_setTarget c token _
  | pass =>
    exact moves_bind moves_integer32 fun _ =>
      moves_bind moves_label fun _ => moves_setPass c token _
  | _ => exact moves_throw (misplaced c token)

theorem moves_readTexture :
    Moves bytes lines (readTexture c token) (readTexture c (token.moved bytes lines)) :=
  moves_bind (moves_objectOf c token .technique) fun _ =>
    moves_bind moves_label fun _ =>
      moves_bind (moves_lengthOr _) fun _ =>
        moves_bind (moves_lengthOr _) fun _ =>
          moves_bind (moves_valueOf _ _ _) fun _ => moves_pure _

theorem moves_readColour : Moves bytes lines readColour readColour :=
  moves_bind moves_single fun _ =>
    moves_bind moves_single fun _ =>
      moves_bind moves_single fun _ =>
        moves_bind moves_single fun _ => moves_pure _

/-- Buffers are read up to the last argument. -/
theorem run_readBuffers (arguments : Arguments) :
    (Command.read c token .buffers).run arguments =
      (Reading.buffers token.line arguments.remaining >>= fun buffers =>
        setPass c token (.clearBuffers buffers)).run arguments := rfl

/-- A unit further down is read to the same command. -/
theorem moves_read (action : Action) :
    Moves bytes lines (Command.read c token action)
      (Command.read c (token.moved bytes lines) action) := by
  cases action with
  | closeBrace =>
    unfold Command.read
    simp only
    split
    · exact moves_throw (.refused .strayBrace)
    · exact moves_pure _
  | compositor =>
    exact moves_bind (moves_requireIn c token .none) fun _ =>
      moves_bind moves_label fun _ => moves_pure _
  | technique => exact moves_bind (moves_objectOf c token .compositor) fun _ => moves_pure _
  | texture => exact moves_readTexture c token
  | target =>
    exact moves_bind (moves_objectOf c token .technique) fun _ =>
      moves_bind moves_label fun _ => moves_pure _
  | targetOutput => exact moves_bind (moves_objectOf c token .technique) fun _ => moves_pure _
  | input => exact moves_readInput c token
  | onlyInitial => exact moves_bind (moves_valueOf _ _ _) fun _ => moves_setTarget c token _
  | visibilityMask => exact moves_bind moves_integer32 fun _ => moves_setTarget c token _
  | lodBias => exact moves_bind moves_single fun _ => moves_setTarget c token _
  | materialScheme => exact moves_bind moves_label fun _ => moves_setTarget c token _
  | pass =>
    exact moves_bind (moves_objectOf c token .target) fun _ =>
      moves_bind (moves_valueOf _ _ _) fun _ => moves_pure _
  | material => exact moves_bind moves_label fun _ => moves_setPass c token _
  | firstRenderQueue | lastRenderQueue =>
    exact moves_bind moves_integer8 fun _ => moves_setPass c token _
  | identifier | stencilValue | refValue | mask =>
    exact moves_bind moves_integer32 fun _ => moves_setPass c token _
  | buffers =>
    intro arguments
    have hcount : (arguments.moved bytes lines).remaining = arguments.remaining :=
      List.length_map _
    rw [run_readBuffers, run_readBuffers, hcount]
    exact moves_bind (moves_buffers token.line arguments.remaining)
      (fun _ => moves_setPass c token _) arguments
  | colourValue => exact moves_bind moves_readColour fun _ => moves_setPass c token _
  | depthValue => exact moves_bind moves_single fun _ => moves_setPass c token _
  | check | compFunc | failOp | depthFailOp | passOp | twoSided =>
    exact moves_bind (moves_valueOf _ _ _) fun _ => moves_setPass c token _

end
/-! ## Sessions -/

/-- The entry of a journal further down. -/
def Entry.moved (lines : Nat) : Entry → Entry
  | .report diagnostic => .report (diagnostic.moved lines)
  | entry => entry

namespace Session
variable {σ : Type}

/-- The session with the lines of its reports moved, and its last line by `last`. -/
def moved (lines last : Nat) (s : Session σ) : Session σ :=
  { s with lastLine := s.lastLine + last, journal := s.journal.map (Entry.moved lines) }

theorem report?_moved (lines : Nat) (entry : Entry) :
    (entry.moved lines).report? = entry.report?.map (Diagnostic.moved lines) := by
  cases entry <;> rfl

theorem diagnostics_moved (lines last : Nat) (s : Session σ) :
    (s.moved lines last).diagnostics = s.diagnostics.map (Diagnostic.moved lines) := by
  simp only [diagnostics, moved, ← List.map_reverse, List.filterMap_map, List.map_filterMap]
  exact congrArg (List.filterMap · _) (funext fun entry => report?_moved lines entry)

theorem diagnostics_following (s past : Session σ) :
    (s.following past).diagnostics = past.diagnostics ++ s.diagnostics := by
  simp [diagnostics, following]

section
variable (b : Builder σ) (bytes lines last : Nat) (s : Session σ)

/-- No command sees where the lines are. -/
theorem moved_unseen : Unseen b (moved lines last) :=
  ⟨fun _ => rfl, fun _ _ => rfl, fun _ _ => rfl, fun _ _ _ => rfl, fun _ _ _ => rfl⟩

/-- A unit further down is answered alike, and what is reported of it is moved. -/
theorem dispatch_moved (action : Action) (token : Token) (arguments : Arguments) :
    (s.moved lines last).dispatch b action (token.moved bytes lines)
        (arguments.moved bytes lines) =
      ((s.dispatch b action token arguments).1.mapError (Inconsistency.moved lines),
        (s.dispatch b action token arguments).2.1.moved bytes lines,
        (s.dispatch b action token arguments).2.2.moved lines last) := by
  have hcontext : (s.moved lines last).context = s.context := rfl
  unfold dispatch
  rw [hcontext]
  split
  · rfl
  · rw [moves_read s.context token action arguments]
    rcases (Command.read s.context token action).run arguments with
      ⟨(refusal | inconsistency) | command, rest⟩
    · rfl
    · rfl
    · simp only [mapError_ok, (moved_unseen b lines last).execute]
      rcases s.execute b command with ⟨error | ⟨⟩, s₁⟩ <;> rfl

/-- The end of a document is moved if it is as far as the lines are, or reports nothing. -/
theorem endDocument_moved (h : last = lines ∨ s.context.openBlocks = 0) :
    (s.moved lines last).endDocument = s.endDocument.moved lines last := by
  have hcontext : (s.moved lines last).context = s.context := rfl
  unfold endDocument
  rw [hcontext]
  rcases h with rfl | hclosed
  · cases s.context.openBlocks <;> rfl
  · rw [hclosed]
    rfl

/-- Behind an earlier session, the handler further down follows the handler here. -/
theorem follows_moved (past : Session σ) :
    (handler b).Follows (handler b) bytes lines (Inconsistency.moved lines)
      fun s t => t = (s.moved lines last).following past where
  dispatch := by
    rintro u s t rfl
    have hdispatch : (handler b).dispatch u.action (u.moved bytes lines).token
        (u.moved bytes lines).reader ((s.moved lines last).following past) = _ :=
      dispatch_following b (s.moved lines last) past u.action _ _
    have hmoved := dispatch_moved b bytes lines last s u.action u.token u.reader
    have hreader : (u.moved bytes lines).reader = u.reader.moved bytes lines := rfl
    have htoken : (u.moved bytes lines).token = u.token.moved bytes lines := rfl
    rw [hreader, htoken, hmoved] at hdispatch
    rw [hreader, htoken, hdispatch]
    exact ⟨rfl, rfl⟩
  mismatch := by
    rintro m s t rfl
    rfl

end
end Session
end Script
end Compositing
