import Mathlib.Data.List.Forall2
import Compositing.Proofs.Scene.Names
import Compositing.Proofs.Script.Outcome
import Compositing.Proofs.Script.Requests

/-! # Compiling a document again

    After a document was compiled, the name of each compositor that stands
    outside all blocks is taken, be it by this one or by an earlier one.  So
    if the document is compiled again each of them is refused and skipped with
    all that is in it, and nothing else may stand where no block is open.

    Both runs hear the same calls but for units after a misplaced one, which
    neither open nor close a block.  `Thins` says that such calls are left
    out, and the compositors outside all blocks do not depend on them. -/

namespace Compositing.Script

/-! ## Calls -/

namespace Call

/-- The calls an event makes if none of its units is misplaced. -/
def ofEvent (action? : Nat → Option Action) : Event → List Call
  | .mismatch m => [.mismatch m]
  | .statement statement =>
    (ActionUnit.cut action? statement.tokens).2.map fun u => .dispatch u.action u.token u.reader

/-- The keywords and arguments of the compositors outside all blocks, where `blocks` are open
    before the calls. -/
def outermost : (blocks : Nat) → List Call → List (Token × Arguments)
  | _, [] => []
  | blocks, .mismatch _ :: rest => outermost blocks rest
  | blocks, .dispatch action token arguments :: rest =>
    let later := outermost (action.count blocks) rest
    if action = .compositor ∧ blocks = 0 then (token, arguments) :: later else later

/-- The compositors outside all blocks among calls in two parts. -/
theorem outermost_append (blocks : Nat) (before after : List Call) :
    outermost blocks (before ++ after) = outermost blocks before ++
      outermost (before.foldl (fun blocks call => call.count blocks) blocks) after := by
  induction before generalizing blocks with
  | nil => rfl
  | cons call rest ih =>
    cases call with
    | mismatch m => exact ih blocks
    | dispatch action token arguments =>
      simp only [List.cons_append, outermost, ih, List.foldl_cons, count]
      split <;> rfl

/-- The arguments of a unit are what its action takes. -/
def Fits : Call → Prop
  | .mismatch _ => True
  | .dispatch action _ arguments => action.Takes (arguments.tokens.map (·.kind))

/-- The second calls are the first without some that neither open nor close a block. -/
inductive Thins : List Call → List Call → Prop where
  | nil : Thins [] []
  | keep (call : Call) {all cs : List Call} (h : Thins all cs) : Thins (call :: all) (call :: cs)
  | drop {call : Call} {all cs : List Call} (hcount : ∀ blocks, call.count blocks = blocks)
    (h : Thins all cs) : Thins (call :: all) cs

namespace Thins
variable {all cs all' cs' : List Call}

theorem append (h : Thins all cs) (h' : Thins all' cs') : Thins (all ++ all') (cs ++ cs') := by
  induction h with
  | nil => exact h'
  | keep call _ ih => exact .keep call ih
  | drop hcount _ ih => exact .drop hcount ih

theorem mem (h : Thins all cs) {call : Call} (hcall : call ∈ cs) : call ∈ all := by
  induction h with
  | nil => exact hcall
  | keep other _ ih =>
    rcases List.mem_cons.mp hcall with rfl | hcall
    · exact List.mem_cons_self
    · exact List.mem_cons_of_mem _ (ih hcall)
  | drop _ _ ih => exact List.mem_cons_of_mem _ (ih hcall)

/-- The compositors outside all blocks are still there. -/
theorem outermost_eq (h : Thins all cs) (blocks : Nat) :
    outermost blocks cs = outermost blocks all := by
  induction h generalizing blocks with
  | nil => rfl
  | keep call _ ih =>
    cases call with
    | mismatch m => exact ih blocks
    | dispatch action token arguments => simp only [outermost, ih]
  | drop hcount _ ih =>
    rename_i call _ _ _
    cases call with
    | mismatch m => exact ih blocks
    | dispatch action token arguments =>
      -- a compositor opens a block
      have haction : action ≠ .compositor := by
        rintro rfl
        have hopens : Action.compositor.count 0 = 0 := hcount 0
        exact absurd hopens (by decide)
      have hsame : action.count blocks = blocks := hcount blocks
      simp only [outermost, hsame, haction, false_and, if_false, ih]

end Thins

end Call

/-- Only the first unit of a statement may open or close a block. -/
theorem StatementShape.count_tail {units : List UnitShape} (h : StatementShape units)
    {u : UnitShape} (hu : u ∈ units.tail) (blocks : Nat) : u.action.count blocks = blocks := by
  have hclear : ∀ action ∈ clearOptions, action.count blocks = blocks := by
    simp [clearOptions, Action.count, Action.opensBlock]
  have hstencil : ∀ action ∈ stencilOptions, action.count blocks = blocks := by
    simp [stencilOptions, Action.count, Action.opensBlock]
  cases h with
  | single _ _ _ => cases hu
  | clear h => exact hclear _ (h u (List.mem_of_mem_tail hu)).1
  | stencil h => exact hstencil _ (h u (List.mem_of_mem_tail hu)).1

namespace Session
variable {σ : Type} {b : Builder σ} {s s' : Session σ}

/-! ## Runs as calls -/

/-- Units that are handed over are dispatched, up to a misplaced one. -/
theorem runUnits_thins {units : List (ActionUnit Action)} {count : Nat}
    (htail : ∀ u ∈ units.tail, ∀ blocks, u.action.count blocks = blocks)
    (h : (handler b).runUnits units s = (.ok count, s')) :
    ∃ cs, calls b cs s = .ok s' ∧
      Call.Thins (units.map fun u => .dispatch u.action u.token u.reader) cs := by
  induction units generalizing s count with
  | nil =>
    cases h
    exact ⟨[], rfl, .nil⟩
  | cons u rest ih =>
    rcases hdispatch : s.dispatch b u.action u.token u.reader with ⟨_ | flow, unread, s₁⟩
    · simp [Handler.runUnits, handler_dispatch, hdispatch] at h
    · have hcall : s.call b (.dispatch u.action u.token u.reader) = .ok s₁ := by
        simp only [Session.call, hdispatch]
      simp only [Handler.runUnits, handler_dispatch, hdispatch] at h
      cases flow with
      | «continue» =>
        rcases hrest : (handler b).runUnits rest s₁ with ⟨_ | count, s₂⟩
        · simp [hrest] at h
        · simp only [hrest] at h
          cases h
          obtain ⟨cs, hcs, hthins⟩ := ih (fun u hu => htail u (List.mem_of_mem_tail hu)) hrest
          refine ⟨_ :: cs, ?_, .keep _ hthins⟩
          simp only [calls, hcall]
          exact hcs
      | skipStatement =>
        -- the units after a misplaced one are not heard
        cases h
        have hdrop : ∀ rest : List (ActionUnit Action),
            (∀ u ∈ rest, ∀ blocks, u.action.count blocks = blocks) →
            Call.Thins (rest.map fun u => .dispatch u.action u.token u.reader) [] := by
          intro rest hrest
          induction rest with
          | nil => exact .nil
          | cons u rest ih =>
            rw [List.forall_mem_cons] at hrest
            exact .drop hrest.1 (ih hrest.2)
        refine ⟨[.dispatch u.action u.token u.reader], ?_, .keep _ (hdrop rest htail)⟩
        simp only [calls, hcall]
        rfl

section
variable {caseSensitive : Bool} {text : List Char}

/-- Events of a script that do not end it are heard as calls. -/
theorem runEvents_thins {events : List Event}
    (hmem : ∀ event ∈ events, event ∈ (language caseSensitive).events text)
    {summary summary' : Summary}
    (h : (handler b).runEvents (language caseSensitive).lexicon.action? events summary s =
      (.ok summary', s')) :
    ∃ cs, calls b cs s = .ok s' ∧
      Call.Thins (events.flatMap (Call.ofEvent (language caseSensitive).lexicon.action?)) cs := by
  induction events generalizing s summary with
  | nil =>
    cases h
    exact ⟨[], rfl, .nil⟩
  | cons event rest ih =>
    rw [List.forall_mem_cons] at hmem
    cases event with
    | mismatch m =>
      obtain ⟨cs, hcs, hthins⟩ := ih hmem.2 (s := s.mismatch m) h
      exact ⟨.mismatch m :: cs, hcs, .keep _ hthins⟩
    | statement statement =>
      obtain ⟨units, hcut, hshape, _⟩ := cut_statement hmem.1
      simp only [Handler.runEvents, Handler.runStatement, hcut] at h
      rcases hrun : (handler b).runUnits units s with ⟨error | count, s₁⟩
      · simp [hrun] at h
      · simp only [hrun] at h
        have htail : ∀ u ∈ units.tail, ∀ blocks, u.action.count blocks = blocks := by
          intro u hu
          refine hshape.count_tail (u := .ofUnit u) ?_
          rw [← List.map_tail]
          exact List.mem_map_of_mem hu
        obtain ⟨first, hfirst, hthins⟩ := runUnits_thins htail hrun
        obtain ⟨cs, hcs, hthins'⟩ := ih hmem.2 h
        refine ⟨first ++ cs, ?_, ?_⟩
        · rw [calls_append, hfirst]
          exact hcs
        · have hof : Call.ofEvent (language caseSensitive).lexicon.action? (.statement statement) =
              units.map fun u => .dispatch u.action u.token u.reader := by
            simp only [Call.ofEvent, hcut]
          rw [List.flatMap_cons, hof]
          exact hthins.append hthins'

/-- The calls of a script fit the grammar. -/
theorem fits_ofEvent {event : Event} (h : event ∈ (language caseSensitive).events text)
    {call : Call}
    (hcall : call ∈ Call.ofEvent (language caseSensitive).lexicon.action? event) :
    call.Fits := by
  cases event with
  | mismatch m =>
    rw [List.mem_singleton.mp hcall]
    trivial
  | statement statement =>
    obtain ⟨units, hcut, hshape, _⟩ := cut_statement h
    simp only [Call.ofEvent, hcut] at hcall
    obtain ⟨u, hu, rfl⟩ := List.mem_map.mp hcall
    exact hshape.fits (List.mem_map_of_mem hu)

end

/-! ## The first time -/

/-- The label of a compositor is read where no block is open. -/
theorem read_compositor {context : Context} (token : Token) {arguments : Arguments}
    {name : String} (hin : context.innermost = .none)
    (hname : arguments.tokens.map (·.kind) = [.label name]) :
    ∃ rest, (Command.read context token .compositor).run arguments =
      (.ok (.openCompositor name), rest) := by
  rw [read_compositor_iff hin, ← List.head?_map, hname]
  rfl

/-- A compositor outside all blocks has a name that is taken afterwards. -/
theorem names_dispatch {s s' : Session Registry} {token : Token} {arguments rest : Arguments}
    {flow : Flow} {name : String} (hopen : s.context.openBlocks = 0)
    (hname : arguments.tokens.map (·.kind) = [.label name])
    (h : s.dispatch Registry.builder .compositor token arguments = (.ok flow, rest, s')) :
    name ∈ s'.builder.names := by
  have hin : s.context.innermost = .none := by
    cases hsection : s.context.innermost <;>
      simp [Context.openBlocks, hsection, Section.depth] at hopen ⊢
  obtain ⟨unread, hreads⟩ := read_compositor token hin hname
  have hexecuted : name ∈ (s.execute Registry.builder (.openCompositor name)).2.builder.names := by
    simp only [execute, opening_builder]
    exact s.builder.mem_names_createCompositor name s.context.group
  have hd := dispatched Registry.builder s .compositor token arguments
  rw [h] at hd
  cases hd with
  | skipped hskip =>
    simp only [Context.openBlocks] at hopen
    omega
  | unread _ hread =>
    rw [hreads] at hread
    cases hread
  | ungranted _ hread hexecute | done _ hread hexecute =>
    rw [hreads] at hread
    cases hread
    rw [hexecute] at hexecuted
    exact hexecuted

/-- The names of a registry stay taken. -/
theorem brings_names : Registry.builder.Brings fun r r' => ∀ name ∈ r.names, name ∈ r'.names where
  refl _ _ hname := hname
  trans h h' name hname := h' name (h name hname)
  createCompositor name group r other hother := by
    show other ∈ (r.createCompositor name group).2.names
    rw [Registry.names_createCompositor]
    split
    · exact hother
    · exact List.mem_append_left _ hother
  createChild parent kind r name hname := by
    show name ∈ (r.createChild parent kind).2.names
    rwa [Registry.names_createChild]
  setAttribute object attr r name hname := by
    show name ∈ (r.setAttribute object attr).2.names
    rwa [Registry.names_setAttribute]

theorem names_call {s s' : Session Registry} {call : Call}
    (h : s.call Registry.builder call = .ok s') {name : String} (hname : name ∈ s.builder.names) :
    name ∈ s'.builder.names := by
  cases call with
  | mismatch m =>
    cases h
    exact hname
  | dispatch action token arguments =>
    have hkept := dispatch_brings brings_names s action token arguments name hname
    rcases hd : s.dispatch Registry.builder action token arguments with ⟨_ | flow, rest, s₁⟩
    · simp [Session.call, hd] at h
    · simp only [Session.call, hd, Except.ok.injEq] at h
      rw [hd, h] at hkept
      exact hkept

theorem names_calls {s s' : Session Registry} {cs : List Call}
    (h : calls Registry.builder cs s = .ok s') {name : String} (hname : name ∈ s.builder.names) :
    name ∈ s'.builder.names := by
  induction cs generalizing s with
  | nil =>
    cases h
    exact hname
  | cons call rest ih =>
    simp only [calls] at h
    cases hcall : s.call Registry.builder call with
    | error inconsistency =>
      rw [hcall] at h
      cases h
    | ok s₁ =>
      rw [hcall] at h
      exact ih h (names_call hcall hname)

/-- After calls, the names of all compositors outside all blocks are taken. -/
theorem names_outermost {s s' : Session Registry} {cs : List Call}
    (h : calls Registry.builder cs s = .ok s') {compositor : Token × Arguments}
    (hmem : compositor ∈ Call.outermost s.context.openBlocks cs) {name : String}
    (hname : compositor.2.tokens.map (·.kind) = [.label name]) : name ∈ s'.builder.names := by
  induction cs generalizing s with
  | nil => cases hmem
  | cons call rest ih =>
    simp only [calls] at h
    cases hcall : s.call Registry.builder call with
    | error inconsistency =>
      rw [hcall] at h
      cases h
    | ok s₁ =>
      rw [hcall] at h
      have hlater := ih (s := s₁) h
      rw [openBlocks_call hcall] at hlater
      cases call with
      | mismatch m => exact hlater hmem
      | dispatch action token arguments =>
        unfold Call.outermost at hmem
        split at hmem
        · rename_i houter
          obtain ⟨rfl, hopen⟩ := houter
          rcases List.mem_cons.mp hmem with rfl | hmem
          · -- the name is taken by this call, and stays so
            rcases hd : s.dispatch Registry.builder .compositor token arguments with
              ⟨_ | flow, unread, s₂⟩
            · simp [Session.call, hd] at hcall
            · simp only [Session.call, hd, Except.ok.injEq] at hcall
              rw [hcall] at hd
              exact names_calls h (names_dispatch hopen hname hd)
          · exact hlater hmem
        · exact hlater hmem

/-! ## The second time -/

end Session

/-- The diagnostic says that the name of a compositor is taken. -/
def IsTaken (diagnostic : Diagnostic) : Bool :=
  "compositor '".toList.isPrefixOf diagnostic.message.toList &&
    "' already exists".toList.isSuffixOf diagnostic.message.toList

/-- No message that begins with another letter says so. -/
theorem filter_isTaken {σ : Type} (s : Session σ) (kind : DiagnosticKind) (line : Nat)
    {message : String} {c : Char} (h : message.toList.head? = some c) (hc : c ≠ 'c') :
    [s.diagnostic kind line message].filter IsTaken = [] := by
  rw [List.filter_singleton]
  suffices hnot : IsTaken (s.diagnostic kind line message) = false by rw [hnot]; rfl
  unfold IsTaken Session.diagnostic
  rw [show "compositor '".toList = 'c' :: "ompositor '".toList from rfl]
  cases hmessage : message.toList with
  | nil => rfl
  | cons first rest =>
    rw [hmessage] at h
    obtain rfl : first = c := Option.some.inj h
    have hne : ('c' == first) = false := beq_false_of_ne (Ne.symm hc)
    simp [List.isPrefixOf, hne]

/-- The wording of a refusal that does not come from the builder. -/
theorem head_message {refusal : Refusal} (h : ∀ error, refusal ≠ .builder error) :
    ∃ c, refusal.message.toList.head? = some c ∧ c ≠ 'c' := by
  cases refusal with
  | strayBrace => exact ⟨'U', rfl, by decide⟩
  | builder error => exact absurd rfl (h error)
  | misplaced keyword within output =>
    refine ⟨'\'', ?_, by decide⟩
    show ("'" ++ _ ++ "' is not allowed " ++ within.location output).toList.head? = _
    rw [String.toList_append, String.toList_append, String.toList_append]
    simp
  | argument error =>
    refine ⟨'e', ?_, by decide⟩
    cases error with
    | exhausted expected =>
      show ("expected " ++ expected.text ++ " but the statement ended").toList.head? = _
      rw [String.toList_append, String.toList_append]
      simp
    | unexpectedKind expected found =>
      show ("expected " ++ expected.text ++ " but found token " ++ toString found).toList.head? = _
      rw [String.toList_append, String.toList_append, String.toList_append]
      simp

theorem head_mismatch (m : Mismatch) : m.message.toList.head? = some 'u' := by
  unfold Mismatch.message
  cases m.nearby with
  | none => rfl
  | some word =>
    show ("unexpected '" ++ word ++ "'").toList.head? = _
    rw [String.toList_append, String.toList_append]
    simp

/-- The diagnostic for a compositor of a document whose name is taken. -/
def taken (document : String) (line : Nat) (name : String) : Diagnostic :=
  ⟨.domainValue, document, line, none, "compositor '" ++ name ++ "' already exists"⟩

theorem isTaken_taken (document : String) (line : Nat) (name : String) :
    IsTaken (taken document line name) = true := by
  have hsuffix : "' already exists".toList <:+ ("compositor '".toList ++ name.toList) ++
      "' already exists".toList := List.suffix_append _ _
  simpa [IsTaken, taken, String.toList_append] using hsuffix

/-- The diagnostic for a compositor outside all blocks whose name is taken. -/
def TakenBy (document : String) (compositor : Token × Arguments) (diagnostic : Diagnostic) :
    Prop :=
  ∃ name, compositor.2.tokens.map (·.kind) = [.label name] ∧
    diagnostic = taken document compositor.1.line name

/-- Nothing but a compositor is read to a command where no block is open. -/
theorem compositor_of_admits {context : Context} {action : Action} {command : Command}
    (hin : context.innermost = .none) (h : Admits context action command) :
    action = .compositor := by
  cases action with
  | compositor => rfl
  | closeBrace => exact absurd hin h.1
  | technique | texture | target | targetOutput | pass =>
    have hother := h.1
    rw [hin] at hother
    cases hother
  | _ =>
    rcases h with ⟨hother, _⟩ | ⟨hother, _⟩
    · rw [hin] at hother
      cases hother
    · rw [hin] at hother
      cases hother

namespace Session

/-- A compositor whose name is taken is not granted. -/
theorem execute_taken {s : Session Registry} {name : String} (h : name ∈ s.builder.names) :
    s.execute Registry.builder (.openCompositor name) =
      (.error (.duplicateName .compositor name), { s with
        journal := .compositor name s.context.group (.error (.duplicateName .compositor name)) ::
          s.journal }) := by
  have hcreate : Registry.builder.createCompositor name s.context.group s.builder =
      (.error (.duplicateName .compositor name), s.builder) :=
    if_pos ((s.builder.find?_isSome_iff name).mpr h)
  simp only [execute, createCompositor, hcreate, opening]

/-- No block is open but refused ones. -/
structure Refusing (group document : String) (r : Registry) (s : Session Registry) : Prop where
  context : s.context = { Context.initial group with skipDepth := s.context.skipDepth }
  document : s.document = document
  builder : s.builder = r

namespace Refusing
variable {group document : String} {r : Registry} {s s' : Session Registry}

theorem innermost (h : Refusing group document r s) : s.context.innermost = .none := by
  rw [h.context]
  rfl

theorem nested (h : Refusing group document r s) : s.context.Nested := by
  rw [h.context]
  constructor <;> simp [Context.initial, Section.depth]

theorem openBlocks (h : Refusing group document r s) :
    s.context.openBlocks = s.context.skipDepth := by
  rw [Context.openBlocks, h.innermost]
  exact Nat.zero_add _

/-- The context may go on to skip blocks. -/
theorem skipping (h : Refusing group document r s) (skipDepth : Nat)
    (hcontext : s'.context = { s.context with skipDepth }) (hdocument : s'.document = s.document)
    (hbuilder : s'.builder = s.builder) : Refusing group document r s' := by
  refine ⟨?_, hdocument.trans h.document, hbuilder.trans h.builder⟩
  rw [hcontext, h.context]

/-- A compositor outside all blocks is refused if its name is taken. -/
theorem dispatch_outermost (h : Refusing group document r s) {token : Token}
    {arguments rest : Arguments} {flow : Flow} {name : String}
    (hskip : s.context.skipDepth = 0)
    (hname : arguments.tokens.map (·.kind) = [.label name]) (htaken : name ∈ r.names)
    (hdispatch : s.dispatch Registry.builder .compositor token arguments =
      (.ok flow, rest, s')) :
    Refusing group document r s' ∧
      s'.diagnostics = s.diagnostics ++ [taken document token.line name] := by
  obtain ⟨unread, hread⟩ := read_compositor token h.innermost hname
  have htaken : name ∈ s.builder.names := h.builder ▸ htaken
  unfold Session.dispatch at hdispatch
  rw [if_neg (by omega), hread] at hdispatch
  simp only [execute_taken htaken, Prod.mk.injEq] at hdispatch
  obtain ⟨_, _, rfl⟩ := hdispatch
  refine ⟨h.skipping _ rfl rfl rfl, ?_⟩
  rw [refuse_diagnostics]
  have hnone : s.context.compositorName = none := by
    rw [h.context]
    rfl
  have hrefused : Refusal.message (.builder (.duplicateName .compositor name)) =
      "compositor '" ++ name ++ "' already exists" := rfl
  simp [diagnostic, diagnostics, Entry.report?, taken, hnone, h.document, hrefused,
    Refusal.kind]

/-- Where no block is open a unit is refused, and if it is a compositor then because its name is
    taken. -/
theorem dispatch (h : Refusing group document r s) {action : Action} {token : Token}
    {arguments rest : Arguments} {flow : Flow}
    (hfits : action.Takes (arguments.tokens.map (·.kind)))
    (htaken : ∀ name, action = .compositor → s.context.skipDepth = 0 →
      arguments.tokens.map (·.kind) = [.label name] → name ∈ r.names)
    (hdispatch : s.dispatch Registry.builder action token arguments = (.ok flow, rest, s')) :
    Refusing group document r s' ∧ ∃ new, s'.diagnostics = s.diagnostics ++ new ∧
      List.Forall₂ (TakenBy document)
        (if action = .compositor ∧ s.context.skipDepth = 0 then [(token, arguments)] else [])
        (new.filter IsTaken) := by
  by_cases houter : action = .compositor ∧ s.context.skipDepth = 0
  · obtain ⟨rfl, hskip⟩ := houter
    obtain ⟨name, hname⟩ := hfits
    obtain ⟨hrefusing, hnew⟩ :=
      h.dispatch_outermost hskip hname (htaken name rfl hskip hname) hdispatch
    refine ⟨hrefusing, _, hnew, ?_⟩
    rw [if_pos ⟨rfl, hskip⟩, List.filter_singleton, isTaken_taken]
    exact .cons ⟨name, hname, rfl⟩ .nil
  · rw [if_neg houter]
    -- what is read to a command where no block is open is a compositor
    have hadmits : ∀ {command}, s.context.skipDepth = 0 → ¬ Admits s.context action command :=
      fun hskip hadmits => houter ⟨compositor_of_admits h.innermost hadmits, hskip⟩
    have hd := dispatched Registry.builder s action token arguments
    rw [hdispatch] at hd
    cases hd with
    | skipped _ => exact ⟨h.skipping _ rfl rfl rfl, [], by simp, .nil⟩
    | unread hskip hread =>
      rename_i refusal
      refine ⟨h.skipping _ rfl rfl rfl, _, refuse_diagnostics s action token _, ?_⟩
      have hown : ∀ error, refusal ≠ .builder error := by
        rintro error rfl
        by_cases haction : action = .closeBrace
        · subst haction
          cases (read_closeBrace hread).1
        · exact arises_of_read haction _ _ _ hread
      obtain ⟨c, hhead, hc⟩ := head_message hown
      rw [filter_isTaken s _ token.line hhead hc]
      exact .nil
    | ungranted hskip hread _ => exact absurd (admits_of_read hread) (hadmits hskip)
    | done hskip hread _ => exact absurd (admits_of_read hread) (hadmits hskip)

/-- A call is answered alike, whatever it is. -/
theorem call (h : Refusing group document r s) {call : Call} {rest : List Call}
    (hfits : call.Fits)
    (htaken : ∀ compositor ∈ Call.outermost s.context.skipDepth (call :: rest), ∀ name,
      compositor.2.tokens.map (·.kind) = [.label name] → name ∈ r.names)
    (hcall : s.call Registry.builder call = .ok s') :
    Refusing group document r s' ∧ ∃ first new,
      Call.outermost s.context.skipDepth (call :: rest) =
        first ++ Call.outermost s'.context.skipDepth rest ∧
      s'.diagnostics = s.diagnostics ++ new ∧
      List.Forall₂ (TakenBy document) first (new.filter IsTaken) := by
  cases call with
  | mismatch m =>
    cases hcall
    refine ⟨h.skipping _ rfl rfl rfl, [], _, rfl, report_diagnostics s _ m.line m.message, ?_⟩
    rw [filter_isTaken s _ m.line (head_mismatch m) (by decide)]
    exact .nil
  | dispatch action token arguments =>
    rcases hd : s.dispatch Registry.builder action token arguments with ⟨_ | flow, unread, s₁⟩
    · simp [Session.call, hd] at hcall
    · simp only [Session.call, hd, Except.ok.injEq] at hcall
      subst hcall
      have htaken : ∀ name, action = .compositor → s.context.skipDepth = 0 →
          arguments.tokens.map (·.kind) = [.label name] → name ∈ r.names := by
        rintro name rfl hskip hname
        refine htaken (token, arguments) ?_ name hname
        simp [Call.outermost, hskip]
      obtain ⟨hrefusing, new, hnew, htold⟩ := h.dispatch hfits htaken hd
      refine ⟨hrefusing, _, new, ?_, hnew, htold⟩
      have hblocks : s₁.context.skipDepth = action.count s.context.skipDepth := by
        rw [← hrefusing.openBlocks, ← h.openBlocks]
        exact openBlocks_dispatch hd
      rw [hblocks, Call.outermost]
      split <;> rfl

/-- Calls leave the builder alone and tell of each compositor outside all blocks that its name is
    taken. -/
theorem calls (h : Refusing group document r s) {cs : List Call}
    (hfits : ∀ call ∈ cs, call.Fits)
    (htaken : ∀ compositor ∈ Call.outermost s.context.skipDepth cs, ∀ name,
      compositor.2.tokens.map (·.kind) = [.label name] → name ∈ r.names)
    (hcalls : Session.calls Registry.builder cs s = .ok s') :
    Refusing group document r s' ∧ ∃ new, s'.diagnostics = s.diagnostics ++ new ∧
      List.Forall₂ (TakenBy document) (Call.outermost s.context.skipDepth cs)
        (new.filter IsTaken) := by
  induction cs generalizing s with
  | nil =>
    cases hcalls
    exact ⟨h, [], by simp, .nil⟩
  | cons call rest ih =>
    rw [List.forall_mem_cons] at hfits
    simp only [Session.calls] at hcalls
    cases hcall : s.call Registry.builder call with
    | error inconsistency =>
      rw [hcall] at hcalls
      cases hcalls
    | ok s₁ =>
      rw [hcall] at hcalls
      obtain ⟨hrefusing, first, new, houtermost, hnew, htold⟩ := h.call hfits.1 htaken hcall
      rw [houtermost] at htaken ⊢
      obtain ⟨hrefusing', later, hlater, htold'⟩ := ih hrefusing hfits.2
        (fun compositor hmem => htaken compositor (List.mem_append_right first hmem)) hcalls
      refine ⟨hrefusing', new ++ later, ?_, ?_⟩
      · rw [hlater, hnew, List.append_assoc]
      · rw [List.filter_append]
        exact List.rel_append htold htold'

section
variable {caseSensitive : Bool} {text : List Char}

/-- The same for the events of a script. -/
theorem runEvents (h : Refusing group document r s) {events : List Event}
    (hmem : ∀ event ∈ events, event ∈ (language caseSensitive).events text)
    (htaken : ∀ compositor ∈ Call.outermost s.context.skipDepth
        (events.flatMap (Call.ofEvent (language caseSensitive).lexicon.action?)), ∀ name,
      compositor.2.tokens.map (·.kind) = [.label name] → name ∈ r.names)
    {summary summary' : Summary}
    (hrun : (handler Registry.builder).runEvents (language caseSensitive).lexicon.action? events
      summary s = (.ok summary', s')) :
    Refusing group document r s' ∧ ∃ new, s'.diagnostics = s.diagnostics ++ new ∧
      List.Forall₂ (TakenBy document)
        (Call.outermost s.context.skipDepth
          (events.flatMap (Call.ofEvent (language caseSensitive).lexicon.action?)))
        (new.filter IsTaken) := by
  obtain ⟨cs, hcs, hthins⟩ := runEvents_thins hmem hrun
  have hfits : ∀ call ∈ cs, call.Fits := by
    intro call hcall
    obtain ⟨event, hevent, hof⟩ := List.mem_flatMap.mp (hthins.mem hcall)
    exact fits_ofEvent (hmem event hevent) hof
  rw [← hthins.outermost_eq] at htaken ⊢
  exact h.calls hfits htaken hcs

end

/-- The end of a document tells of no compositor. -/
theorem endDocument (h : Refusing group document r s) :
    s.endDocument.builder = r ∧
      s.endDocument.diagnostics.filter IsTaken = s.diagnostics.filter IsTaken := by
  refine ⟨(endDocument_builder s).trans h.builder, ?_⟩
  rw [endDocument_diagnostics, List.filter_append]
  split
  · exact List.append_nil _
  · have hhead : ("Unexpected end of script: " ++ toString s.context.openBlocks ++
        " block(s) still open.").toList.head? = some 'U' := by
      simp [String.toList_append]
    rw [filter_isTaken s _ s.lastLine hhead (by decide)]
    exact List.append_nil _

end Refusing

/-! ## Documents -/

/-- A document begins with no block open. -/
theorem refusing_beginDocument (group : String) (d : Document) (r : Registry) :
    Refusing group d.name r ((new group r).beginDocument d) :=
  ⟨rfl, rfl, rfl⟩

/-- A document that compiles compiles again over what it left.  That is left as it is, and each
    compositor outside all blocks, and nothing else, is told of as one whose name is taken. -/
theorem compile_again {caseSensitive : Bool} {group : String} {d : Document} {r : Registry}
    {summary : Summary} {s : Session Registry}
    (h : (Compiler.standard caseSensitive group).compile Registry.builder d r =
      (.ok summary, s)) :
    ∃ summary' s', (Compiler.standard caseSensitive group).compile Registry.builder d s.builder =
        (.ok summary', s') ∧
      s'.builder = s.builder ∧
      List.Forall₂ (TakenBy d.name)
        (Call.outermost 0 (((language caseSensitive).events d.text.toList).flatMap
          (Call.ofEvent (language caseSensitive).lexicon.action?)))
        (s'.diagnostics.filter IsTaken) := by
  have hbegins := refusing_beginDocument group d s.builder
  have hnested : ((new group r).beginDocument d).context.Nested := nested_initial group
  -- the first time every compositor outside all blocks left its name
  have htaken : ∀ compositor ∈ Call.outermost 0
      (((language caseSensitive).events d.text.toList).flatMap
        (Call.ofEvent (language caseSensitive).lexicon.action?)), ∀ name,
      compositor.2.tokens.map (·.kind) = [.label name] → name ∈ s.builder.names := by
    intro compositor hmem name hname
    rcases runEvents_cases Registry.builder (fun event h => h) ⟨0, 0, 0, 0⟩ hnested with
      ⟨counts, ended, hrun, _⟩ | ⟨_, _, _, _, _, _, _, _, _, hrun⟩
    · cases (compile_of_ok hrun).symm.trans h
      obtain ⟨cs, hcs, hthins⟩ := runEvents_thins (fun event h => h) hrun
      rw [← hthins.outermost_eq] at hmem
      rw [endDocument_builder]
      exact names_outermost hcs hmem hname
    · cases (compile_of_error hrun).symm.trans h
  rcases runEvents_cases Registry.builder (fun event h => h) ⟨0, 0, 0, 0⟩ hbegins.nested with
    ⟨counts, ended, hrun, _⟩ | ⟨before, statement, after, line, counts, s₁, hsplit, hrun, hslot, _⟩
  · obtain ⟨hrefusing, new, hnew, htold⟩ := hbegins.runEvents (fun event h => h) htaken hrun
    obtain ⟨hbuilder, hdiagnostics⟩ := hrefusing.endDocument
    refine ⟨_, _, compile_of_ok hrun, hbuilder, ?_⟩
    rw [hdiagnostics, hnew]
    exact htold
  · -- the second time no block is open, so no slot is given to a target
    rw [hsplit, List.flatMap_append] at htaken
    obtain ⟨hrefusing, _⟩ := hbegins.runEvents
      (fun event h => hsplit ▸ List.mem_append_left _ h)
      (fun compositor hmem => htaken compositor (Call.outermost_append _ _ _ ▸
        List.mem_append_left _ hmem)) hrun
    have hin := hrefusing.innermost
    rw [hslot.2.1] at hin
    cases hin

/-- A compositor with another inside, which is misplaced, and a stray brace. -/
def misplacedCompositor : Document :=
  ⟨"twice.compositor", "compositor A \x7b\ncompositor B \x7b \x7d \x7d\n\x7d\n"⟩

theorem compile_again_misplaced :
    ∃ s, (Compiler.standard true "General").compile Registry.builder misplacedCompositor
        (Registry.empty .standard) = (.ok ⟨5, 5, 0, 2⟩, s) ∧
      ∃ summary s', (Compiler.standard true "General").compile Registry.builder
          misplacedCompositor s.builder = (.ok summary, s') ∧
        s'.builder = s.builder ∧ (s'.diagnostics.filter IsTaken).length = 1 := by
  have hresult : ((Compiler.standard true "General").compile Registry.builder
      misplacedCompositor (Registry.empty .standard)).1 = .ok ⟨5, 5, 0, 2⟩ := by rfl
  have houtermost : (Call.outermost 0 (((language true).events
      misplacedCompositor.text.toList).flatMap
        (Call.ofEvent (language true).lexicon.action?))).length = 1 := by rfl
  generalize hfirst : (Compiler.standard true "General").compile Registry.builder
    misplacedCompositor (Registry.empty .standard) = first at hresult ⊢
  obtain ⟨result, s⟩ := first
  obtain rfl : result = .ok ⟨5, 5, 0, 2⟩ := hresult
  obtain ⟨summary, s', hsecond, hbuilder, htold⟩ := compile_again hfirst
  exact ⟨s, rfl, summary, s', hsecond, hbuilder, htold.length_eq.symm.trans houtermost⟩

end Session
end Compositing.Script
