import Compositing.Proofs.Script.Consistency
import Compositing.Proofs.Script.Blocks
import Compositing.Script.Compiler

/-! # The outcome of a compilation

    A compilation carries out every event of its document and tells the author
    of every mistake, with one exception: a slot given to a target ends it at
    once.  What is told of an event is said without the journal by `toldOf`: a
    mismatch, and each unit that is refused up to the first misplaced one.

    The run is followed with a nested context, in which a unit that fits the
    grammar is never inconsistent but for the exception. -/

namespace Compositing

/-- Is the event a statement? -/
def Event.isStatement : Event → Bool
  | .statement _ => true
  | .mismatch _ => false

namespace Script
namespace Session
variable {σ : Type}

/-! ## What is told -/

/-- Why a unit is refused, if it is. -/
def refusal? (b : Builder σ) (s : Session σ) (u : ActionUnit Action) : Option Refusal :=
  if 0 < s.context.skipDepth then none
  else
    match (Command.read s.context u.token u.action).run u.reader with
    | (.ok command, _) =>
      match (s.execute b command).1 with
      | .ok () => none
      | .error error => some (.builder error)
    | (.error (.refused refusal), _) => some refusal
    | (.error (.inconsistent _), _) => none

/-- The session after a unit was handed over. -/
def afterUnit (b : Builder σ) (s : Session σ) (u : ActionUnit Action) : Session σ :=
  (s.dispatch b u.action u.token u.reader).2.2

/-- What is told of units handed over in turn; a misplaced one is the last. -/
def told (b : Builder σ) : List (ActionUnit Action) → Session σ → List Diagnostic
  | [], _ => []
  | u :: rest, s =>
    match s.refusal? b u with
    | none => told b rest (s.afterUnit b u)
    | some refusal =>
      s.diagnostic refusal.kind u.token.line refusal.message ::
        match refusal.flow with
        | .continue => told b rest (s.afterUnit b u)
        | .skipStatement => []

/-- What is told of an event. -/
def toldOf (b : Builder σ) (action? : Nat → Option Action) (s : Session σ) :
    Event → List Diagnostic
  | .mismatch m => [s.diagnostic .syntaxMismatch m.line m.message]
  | .statement statement => told b (ActionUnit.cut action? statement.tokens).2 s

variable {b : Builder σ} {s s' : Session σ}

/-- A dispatch that does not end the document tells of the refusal, if there is one. -/
theorem dispatch_told {u : ActionUnit Action} {flow : Flow} {rest : Arguments}
    (h : s.dispatch b u.action u.token u.reader = (.ok flow, rest, s')) :
    (s.refusal? b u = none ∧ flow = .continue ∧ s'.diagnostics = s.diagnostics) ∨
    (∃ refusal, s.refusal? b u = some refusal ∧ flow = refusal.flow ∧
      s'.diagnostics =
        s.diagnostics ++ [s.diagnostic refusal.kind u.token.line refusal.message]) := by
  have hd := dispatched b s u.action u.token u.reader
  rw [h] at hd
  unfold refusal?
  cases hd with
  | skipped hskip => exact .inl ⟨if_pos hskip, rfl, rfl⟩
  | unread hskip hread =>
    rw [if_neg (by omega), hread]
    exact .inr ⟨_, rfl, rfl, refuse_diagnostics s u.action u.token _⟩
  | ungranted hskip hread hexecute =>
    have hrequested := execute_error hexecute
    rw [if_neg (by omega), hread]
    simp only [hexecute]
    refine .inr ⟨_, rfl, rfl, ?_⟩
    rw [refuse_diagnostics, hrequested.diagnostics]
    simp [diagnostic, hrequested.document, hrequested.context]
  | done hskip hread hexecute =>
    obtain ⟨handle, s₁, hrequested, rfl⟩ := execute_ok hexecute
    refine .inl ⟨?_, rfl, hrequested.diagnostics⟩
    rw [if_neg (by omega), hread]
    simp only [hexecute]

theorem handler_dispatch (b : Builder σ) : (handler b).dispatch = dispatch b := rfl

/-- Units that are all handed over are told of. -/
theorem runUnits_told {units : List (ActionUnit Action)} {count : Nat}
    (h : (handler b).runUnits units s = (.ok count, s')) :
    s'.diagnostics = s.diagnostics ++ told b units s := by
  induction units generalizing s count with
  | nil =>
    cases h
    rw [told, List.append_nil]
  | cons u units ih =>
    simp only [told, afterUnit]
    rcases hdispatch : s.dispatch b u.action u.token u.reader with ⟨_ | flow, rest, s₁⟩
    · simp [Handler.runUnits, handler_dispatch, hdispatch] at h
    · have htold := dispatch_told hdispatch
      simp only [Handler.runUnits, handler_dispatch, hdispatch] at h
      cases flow with
      | «continue» =>
        rcases hrest : (handler b).runUnits units s₁ with ⟨_ | count, s₂⟩
        · simp [hrest] at h
        · simp only [hrest] at h
          cases h
          rcases htold with ⟨hrefusal, _, hsame⟩ | ⟨refusal, hrefusal, hflow, hmore⟩
          · simp only [hrefusal]
            rw [ih hrest, hsame]
          · simp only [hrefusal, ← hflow]
            rw [ih hrest, hmore, List.append_assoc]
            rfl
      | skipStatement =>
        cases h
        rcases htold with ⟨_, hflow, _⟩ | ⟨refusal, hrefusal, hflow, hmore⟩
        · cases hflow
        · simp only [hrefusal, ← hflow]
          exact hmore

/-! ## Units -/

/-- The unit gives a slot to the open target. -/
def StopsAt (s : Session σ) (u : ActionUnit Action) : Prop :=
  s.context.skipDepth = 0 ∧ IsSlotOfTarget s.context u.action (u.arguments.map (·.kind))

/-- A unit that fits is dispatched, unless it gives a slot to the open target. -/
theorem dispatch_fits (b : Builder σ) {u : ActionUnit Action} (hnested : s.context.Nested)
    (hfits : (UnitShape.ofUnit u).Fits) :
    (¬ s.StopsAt u ∧ ∃ flow rest s',
      s.dispatch b u.action u.token u.reader = (.ok flow, rest, s') ∧ s'.context.Nested) ∨
    (s.StopsAt u ∧ ∃ rest, s.dispatch b u.action u.token u.reader =
      (.error ⟨u.token.line, .notKeyword Token.numberId⟩, rest, s)) := by
  have hkept := nested_dispatch (b := b) u.action u.token u.reader hnested
  -- a read that finds no inconsistency is not that of a slot
  have hgoes : ∀ {outcome : Except Failure Command × Arguments},
      (Command.read s.context u.token u.action).run u.reader = outcome →
      (∀ inconsistency, outcome.1 ≠ .error (.inconsistent inconsistency)) → ¬ s.StopsAt u := by
    rintro outcome hread hne ⟨_, hslot⟩
    obtain ⟨rest, hslot⟩ := read_slotOfTarget u.token u.reader hslot
    rw [hslot] at hread
    rw [← hread] at hne
    exact hne _ rfl
  have hd := dispatched b s u.action u.token u.reader
  generalize s.dispatch b u.action u.token u.reader = outcome at hd hkept ⊢
  cases hd with
  | skipped hskip =>
    refine .inl ⟨?_, _, _, _, rfl, hkept⟩
    rintro ⟨hzero, _⟩
    omega
  | unread _ hread => exact .inl ⟨hgoes hread (by simp), _, _, _, rfl, hkept⟩
  | ungranted _ hread _ => exact .inl ⟨hgoes hread (by simp), _, _, _, rfl, hkept⟩
  | done _ hread _ => exact .inl ⟨hgoes hread (by simp), _, _, _, rfl, hkept⟩
  | inconsistent hskip hread =>
    by_cases hslot : IsSlotOfTarget s.context u.action (u.arguments.map (·.kind))
    · obtain ⟨rest, hslotted⟩ :=
        read_slotOfTarget u.token u.reader hslot
      rw [hslotted] at hread
      cases hread
      exact .inr ⟨⟨hskip, hslot⟩, _, rfl⟩
    · have htakes : u.action.Takes (u.arguments.map (·.kind)) := hfits
      have hconsistent := consistent_read u.token hnested htakes hslot u.reader rfl
      rw [hread] at hconsistent
      obtain ⟨refusal, hrefusal⟩ := hconsistent
      cases hrefusal

/-- Fitting units none of which is a slot are all handed over or skipped. -/
theorem runUnits_fits (b : Builder σ) {units : List (ActionUnit Action)}
    (hnested : s.context.Nested)
    (hunits : ∀ u ∈ units, (UnitShape.ofUnit u).Fits ∧
      ¬ IsSlotInput u.action (u.arguments.map (·.kind))) :
    ∃ count s', (handler b).runUnits units s = (.ok count, s') ∧ s'.context.Nested := by
  induction units generalizing s with
  | nil => exact ⟨0, s, rfl, hnested⟩
  | cons u units ih =>
    rw [List.forall_mem_cons] at hunits
    rcases dispatch_fits b hnested hunits.1.1 with ⟨_, flow, rest, s₁, hdispatch, hnested⟩ | hslot
    · simp only [Handler.runUnits, handler_dispatch, hdispatch]
      cases flow with
      | «continue» =>
        obtain ⟨count, s₂, hrest, hnested⟩ := ih hnested hunits.2
        simp only [hrest]
        exact ⟨_, _, rfl, hnested⟩
      | skipStatement => exact ⟨1, s₁, rfl, hnested⟩
    · exact absurd hslot.1.2.2 hunits.1.2

/-! ## Statements -/

end Session

/-- The statement is an `input` on a line, followed by a slot and a texture. -/
def IsSlotStatement (statement : Statement) (line : Nat) : Prop :=
  ∃ input slot texture x name, statement.tokens = [input, slot, texture] ∧
    input.kind = Keyword.input.kind ∧ input.line = line ∧
    slot.kind = .number x ∧ texture.kind = .label name

theorem action_of_keyword (action action' : Action)
    (h : action.keyword.kind = action'.keyword.kind) : action = action' := by
  have h : action.keyword.id = action'.keyword.id := Token.Kind.keyword.inj h
  cases action <;> cases action' <;> first | rfl | exact absurd h (by decide)

/-- A statement gives a slot exactly if it is a single unit that does. -/
theorem isSlotStatement_iff {caseSensitive : Bool} {text : List Char} {statement : Statement}
    {units : List (ActionUnit Action)} {line : Nat}
    (h : Event.statement statement ∈ (language caseSensitive).events text)
    (hcut : ActionUnit.cut (language caseSensitive).lexicon.action? statement.tokens =
      ([], units)) :
    IsSlotStatement statement line ↔
      ∃ u, units = [u] ∧ IsSlotInput u.action (u.arguments.map (·.kind)) ∧
        u.token.line = line := by
  obtain ⟨_, hcut', hshape, hkinds⟩ := cut_statement h
  rw [hcut] at hcut'
  cases hcut'
  have htokens := ActionUnit.tokens_of_cut hcut
  rw [List.nil_append] at htokens
  constructor
  · rintro ⟨input, slot, texture, x, name, heq, hinput, hline, hslot, htexture⟩
    rw [heq] at htokens
    cases units with
    | nil => cases htokens
    | cons u rest =>
      rw [List.flatMap_cons, List.cons_append, List.cons.injEq] at htokens
      obtain ⟨rfl, harguments⟩ := htokens
      have haction : u.action = .input := by
        have hu := hkinds u (by simp)
        rw [hinput] at hu
        exact (action_of_keyword .input u.action hu).symm
      -- an input is no option of a block, so it stands alone
      have hrest : rest = [] := by
        rcases hshape.single_or_ne_input with ⟨shape, hsingle⟩ | hne
        · exact List.map_eq_nil_iff.mp (List.cons.inj hsingle).2
        · exact absurd haction (hne _ (List.mem_cons_self ..))
      subst hrest
      rw [List.flatMap_nil, List.append_nil] at harguments
      refine ⟨u, rfl, ⟨haction, x, name, ?_⟩, hline⟩
      rw [← harguments]
      simp [hslot, htexture]
  · rintro ⟨u, rfl, ⟨haction, x, name, harguments⟩, hline⟩
    obtain ⟨slot, tail, hslot, hslotkind, htail⟩ := List.map_eq_cons_iff.mp harguments
    obtain ⟨texture, rest, htexture, htexturekind, hrest⟩ := List.map_eq_cons_iff.mp htail
    have hkind := hkinds u (by simp)
    rw [haction] at hkind
    refine ⟨u.token, slot, texture, x, name, ?_, hkind, hline, hslotkind, htexturekind⟩
    rw [htokens, List.flatMap_singleton, hslot, htexture, List.map_eq_nil_iff.mp hrest]

namespace Session
variable {σ : Type} {b : Builder σ} {s s' : Session σ}

/-- The statement gives a slot to the open target. -/
def SlotAt (s : Session σ) (statement : Statement) (line : Nat) : Prop :=
  s.context.skipDepth = 0 ∧ s.context.innermost = .target ∧ IsSlotStatement statement line

/-- What ends a document early: a slot, on a line, is no keyword. -/
def slotError (line : Nat) : RunError Inconsistency :=
  .handler ⟨line, .notKeyword Token.numberId⟩

section
variable {caseSensitive : Bool} {text : List Char}

/-- A unit that is dispatched, alone in its statement, is counted. -/
theorem runUnits_single {u : ActionUnit Action} {flow : Flow} {rest : Arguments}
    (h : s.dispatch b u.action u.token u.reader = (.ok flow, rest, s')) :
    (handler b).runUnits [u] s = (.ok 1, s') := by
  cases flow with
  | «continue» => simp [Handler.runUnits, handler_dispatch, h]
  | skipStatement => simp [Handler.runUnits, handler_dispatch, h]

/-- A statement of a script is carried out, unless it gives a slot to the open target. -/
theorem runStatement_cases (b : Builder σ) {statement : Statement}
    (h : Event.statement statement ∈ (language caseSensitive).events text)
    (hnested : s.context.Nested) :
    ((∀ line, ¬ s.SlotAt statement line) ∧ ∃ count s',
      (handler b).runStatement (language caseSensitive).lexicon.action? statement s =
        (.ok count, s') ∧ s'.context.Nested) ∨
    (∃ line, s.SlotAt statement line ∧
      (handler b).runStatement (language caseSensitive).lexicon.action? statement s =
        (.error (slotError line), s)) := by
  obtain ⟨units, hcut, hshape, _⟩ := cut_statement h
  have hslot : ∀ line, IsSlotStatement statement line ↔ ∃ u, units = [u] ∧
      IsSlotInput u.action (u.arguments.map (·.kind)) ∧ u.token.line = line :=
    fun line => isSlotStatement_iff h hcut
  have hfits : ∀ u ∈ units, (UnitShape.ofUnit u).Fits :=
    fun u hu => hshape.fits (List.mem_map.mpr ⟨u, hu, rfl⟩)
  unfold Handler.runStatement
  rw [hcut]
  rcases hshape.single_or_ne_input with ⟨shape, hsingle⟩ | hne
  · -- a single unit is dispatched, or it is the slot
    obtain ⟨u, rest, rfl, _, hrest⟩ := List.map_eq_cons_iff.mp hsingle
    obtain rfl := List.map_eq_nil_iff.mp hrest
    rcases dispatch_fits b hnested (hfits u (List.mem_singleton.mpr rfl)) with
      ⟨hgoes, flow, rest, s₁, hdispatch, hnested⟩ | ⟨⟨hskip, hin, hinput⟩, rest, hdispatch⟩
    · refine .inl ⟨?_, 1, s₁, runUnits_single hdispatch, hnested⟩
      rintro line ⟨hskip, hin, hstatement⟩
      obtain ⟨u', heq, hinput, _⟩ := (hslot line).mp hstatement
      cases heq
      exact hgoes ⟨hskip, hin, hinput⟩
    · refine .inr ⟨u.token.line, ⟨hskip, hin, (hslot _).mpr ⟨u, rfl, hinput, rfl⟩⟩, ?_⟩
      simp [Handler.runUnits, handler_dispatch, hdispatch, slotError]
  · -- options are no inputs, so none of them is a slot
    have hne : ∀ u ∈ units, u.action ≠ .input :=
      fun u hu => hne _ (List.mem_map.mpr ⟨u, hu, rfl⟩)
    refine .inl ⟨?_, runUnits_fits b hnested fun u hu => ⟨hfits u hu, fun hinput => ?_⟩⟩
    · rintro line ⟨_, _, hstatement⟩
      obtain ⟨u, rfl, ⟨haction, _⟩, _⟩ := (hslot line).mp hstatement
      exact hne u (List.mem_singleton.mpr rfl) haction
    · exact hne u hu hinput.1

end

/-! ## Runs -/

section
variable {ε α τ : Type} {h : Handler α τ ε} {action? : Nat → Option α}

/-- A run over events in two parts. -/
theorem runEvents_append (before after : List Event) (summary : Summary) (s : τ) :
    h.runEvents action? (before ++ after) summary s =
      match h.runEvents action? before summary s with
      | (.ok summary, s) => h.runEvents action? after summary s
      | (.error error, s) => (.error error, s) := by
  induction before generalizing summary s with
  | nil => rfl
  | cons event before ih =>
    cases event with
    | mismatch m => exact ih _ _
    | statement statement =>
      simp only [List.cons_append, Handler.runEvents]
      rcases h.runStatement action? statement s with ⟨error | count, s₁⟩
      · rfl
      · exact ih _ _

end

/-- The session after events, none of which ended the document. -/
def Ran (b : Builder σ) (caseSensitive : Bool) (events : List Event) (s s' : Session σ) : Prop :=
  ∃ summary, (handler b).runEvents (language caseSensitive).lexicon.action? events ⟨0, 0, 0, 0⟩ s =
    (.ok summary, s')

section
variable {caseSensitive : Bool} {text : List Char}

/-- Events that do not end a document keep the context nested. -/
theorem nested_runEvents {events : List Event}
    (hmem : ∀ event ∈ events, event ∈ (language caseSensitive).events text)
    {summary summary' : Summary} (hnested : s.context.Nested)
    (h : (handler b).runEvents (language caseSensitive).lexicon.action? events summary s =
      (.ok summary', s')) : s'.context.Nested := by
  induction events generalizing s summary with
  | nil =>
    cases h
    exact hnested
  | cons event events ih =>
    rw [List.forall_mem_cons] at hmem
    cases event with
    | mismatch m => exact ih hmem.2 (s := s.mismatch m) hnested h
    | statement statement =>
      unfold Handler.runEvents at h
      rcases runStatement_cases b hmem.1 hnested with
        ⟨_, count, s₁, hrun, hnested⟩ | ⟨line, _, hrun⟩
      · rw [hrun] at h
        exact ih hmem.2 hnested h
      · rw [hrun] at h
        cases h

/-- Events are all carried out and counted, or one of them gives a slot to the open target. -/
theorem runEvents_cases (b : Builder σ) {events : List Event}
    (hmem : ∀ event ∈ events, event ∈ (language caseSensitive).events text)
    (summary : Summary) (hnested : s.context.Nested) :
    (∃ summary' s',
      (handler b).runEvents (language caseSensitive).lexicon.action? events summary s =
        (.ok summary', s') ∧
      summary'.statements = summary.statements + events.countP Event.isStatement ∧
      summary'.mismatches = summary.mismatches + events.countP (!Event.isStatement ·)) ∨
    (∃ before statement after line summary₁ s₁, events = before ++ .statement statement :: after ∧
      (handler b).runEvents (language caseSensitive).lexicon.action? before summary s =
        (.ok summary₁, s₁) ∧
      s₁.SlotAt statement line ∧
      (handler b).runEvents (language caseSensitive).lexicon.action? events summary s =
        (.error (slotError line), s₁)) := by
  -- an event that is carried out leaves a nested context, so that the hypothesis holds for the
  -- events after it; one that is not is the slot, and nothing after it is looked at
  induction events generalizing s summary with
  | nil => exact .inl ⟨summary, s, rfl, rfl, rfl⟩
  | cons event events ih =>
    rw [List.forall_mem_cons] at hmem
    cases event with
    | mismatch m =>
      rcases ih hmem.2 { summary with mismatches := summary.mismatches + 1 }
          (s := s.mismatch m) hnested with
        ⟨summary', s', hrun, hstatements, hmismatches⟩ |
        ⟨before, statement, after, line, summary₁, s₁, rfl, hbefore, hslot, hrun⟩
      · refine .inl ⟨summary', s', hrun, ?_, ?_⟩
        · rw [hstatements, List.countP_cons_of_neg (by simp [Event.isStatement])]
        · rw [hmismatches, List.countP_cons_of_pos (by simp [Event.isStatement])]
          simp only
          omega
      · exact .inr ⟨.mismatch m :: before, statement, after, line, summary₁, s₁, rfl, hbefore,
          hslot, hrun⟩
    | statement statement =>
      rcases runStatement_cases b hmem.1 hnested with
        ⟨_, count, s₁, hstatement, hnested⟩ | ⟨line, hslot, hstatement⟩
      · have hcons : ∀ rest, (handler b).runEvents (language caseSensitive).lexicon.action?
            (.statement statement :: rest) summary s =
            (handler b).runEvents (language caseSensitive).lexicon.action? rest
              { summary with
                statements := summary.statements + 1
                actions := summary.actions + count } s₁ := by
          intro rest
          simp only [Handler.runEvents, hstatement]
        rcases ih hmem.2
            { summary with
              statements := summary.statements + 1
              actions := summary.actions + count } hnested with
          ⟨summary', s', hrun, hstatements, hmismatches⟩ |
          ⟨before, statement', after, line, summary₁, s₂, rfl, hbefore, hslot, hrun⟩
        · refine .inl ⟨summary', s', (hcons _).trans hrun, ?_, ?_⟩
          · rw [hstatements, List.countP_cons_of_pos (by simp [Event.isStatement])]
            simp only
            omega
          · rw [hmismatches, List.countP_cons_of_neg (by simp [Event.isStatement])]
        · exact .inr ⟨.statement statement :: before, statement', after, line, summary₁, s₂, rfl,
            (hcons _).trans hbefore, hslot, (hcons _).trans hrun⟩
      · refine .inr ⟨[], statement, events, line, summary, s, rfl, rfl, hslot, ?_⟩
        simp only [Handler.runEvents, hstatement]

/-- An event that does not end the document is told of. -/
theorem runEvent_told {event : Event} {summary summary' : Summary}
    (hmem : event ∈ (language caseSensitive).events text)
    (h : (handler b).runEvents (language caseSensitive).lexicon.action? [event] summary s =
      (.ok summary', s')) :
    s'.diagnostics =
      s.diagnostics ++ s.toldOf b (language caseSensitive).lexicon.action? event := by
  cases event with
  | mismatch m =>
    cases h
    exact report_diagnostics s _ m.line m.message
  | statement statement =>
    obtain ⟨units, hcut, _⟩ := cut_statement hmem
    simp only [Handler.runEvents, Handler.runStatement, hcut] at h
    rcases hrun : (handler b).runUnits units s with ⟨error | count, s₁⟩
    · simp [hrun] at h
    · simp only [hrun] at h
      cases h
      simp only [toldOf, hcut]
      exact runUnits_told hrun

/-- A run over a document goes through each of its events: the events before it, then it, which
    is told of and gives no slot to the open target. -/
theorem ran_event {events before after : List Event} {event : Event}
    (hmem : ∀ event ∈ events, event ∈ (language caseSensitive).events text)
    (hnested : s.context.Nested) (h : Ran b caseSensitive events s s')
    (hsplit : events = before ++ event :: after) :
    ∃ s₁ s₂, Ran b caseSensitive before s s₁ ∧ Ran b caseSensitive (before ++ [event]) s s₂ ∧
      s₂.diagnostics =
        s₁.diagnostics ++ s₁.toldOf b (language caseSensitive).lexicon.action? event ∧
      ∀ statement line, event = .statement statement → ¬ s₁.SlotAt statement line := by
  obtain ⟨summary, h⟩ := h
  have hevent : event ∈ (language caseSensitive).events text := hmem event (by simp [hsplit])
  rw [hsplit, show before ++ event :: after = before ++ ([event] ++ after) from rfl,
    runEvents_append] at h
  rcases hbefore : (handler b).runEvents (language caseSensitive).lexicon.action? before
      ⟨0, 0, 0, 0⟩ s with ⟨error | summary₁, s₁⟩
  · simp [hbefore] at h
  · simp only [hbefore] at h
    rw [runEvents_append] at h
    rcases hrun : (handler b).runEvents (language caseSensitive).lexicon.action? [event]
        summary₁ s₁ with ⟨error | summary₂, s₂⟩
    · simp [hrun] at h
    · refine ⟨s₁, s₂, ⟨summary₁, hbefore⟩, ⟨summary₂, ?_⟩, runEvent_told hevent hrun, ?_⟩
      · rw [runEvents_append, hbefore]
        exact hrun
      · rintro statement line rfl hslot
        have hnested₁ : s₁.context.Nested :=
          nested_runEvents (fun event h => hmem event (by simp [hsplit, h])) hnested hbefore
        rcases runStatement_cases b hevent hnested₁ with ⟨hno, _⟩ | ⟨line', _, hstatement⟩
        · exact hno line hslot
        · simp [Handler.runEvents, hstatement] at hrun

end

/-! ## Documents -/

section
variable {caseSensitive : Bool} {group : String} {d : Document} {builder : σ}

theorem compile_of_ok {summary : Summary}
    (h : (handler b).runEvents (language caseSensitive).lexicon.action?
        ((language caseSensitive).events d.text.toList) ⟨0, 0, 0, 0⟩
        ((new group builder).beginDocument d) = (.ok summary, s)) :
    (Compiler.standard caseSensitive group).compile b d builder =
      (.ok { summary with errors := s.endDocument.errors }, s.endDocument) := by
  have h : (language caseSensitive).run (handler b) d (new group builder) =
      (.ok summary, s.endDocument) := by
    unfold Language.run
    simp only [handler] at h ⊢
    rw [h]
  simp only [Compiler.compile, Compiler.standard, h]
  rfl

theorem compile_of_error {error : RunError Inconsistency}
    (h : (handler b).runEvents (language caseSensitive).lexicon.action?
        ((language caseSensitive).events d.text.toList) ⟨0, 0, 0, 0⟩
        ((new group builder).beginDocument d) = (.error error, s)) :
    (Compiler.standard caseSensitive group).compile b d builder = (.error error, s) := by
  have h : (language caseSensitive).run (handler b) d (new group builder) = (.error error, s) := by
    unfold Language.run
    simp only [handler] at h ⊢
    rw [h]
  simp only [Compiler.compile, Compiler.standard, h]
  rfl

end

/-- Compiling a document carries out all its events and tells of each of them, unless one of
    them gives a slot to the open target: then, and only then, the compilation fails. -/
theorem compile_cases (b : Builder σ) (caseSensitive : Bool) (group : String) (d : Document)
    (builder : σ) :
    let events := (language caseSensitive).events d.text.toList
    let begun := (Session.new group builder).beginDocument d
    let outcome := (Compiler.standard caseSensitive group).compile b d builder
    (∃ summary s, outcome = (.ok summary, s.endDocument) ∧
      Ran b caseSensitive events begun s ∧
      summary.statements = events.countP Event.isStatement ∧
      summary.mismatches = events.countP (!Event.isStatement ·) ∧
      ∀ before event after, events = before ++ event :: after →
        ∃ s₁ s₂, Ran b caseSensitive before begun s₁ ∧
          Ran b caseSensitive (before ++ [event]) begun s₂ ∧
          s₂.diagnostics =
            s₁.diagnostics ++ s₁.toldOf b (language caseSensitive).lexicon.action? event ∧
          ∀ statement line, event = .statement statement → ¬ s₁.SlotAt statement line) ∨
    (∃ before statement after line s, events = before ++ .statement statement :: after ∧
      Ran b caseSensitive before begun s ∧ s.SlotAt statement line ∧
      outcome = (.error (slotError line), s)) := by
  intro events begun outcome
  have hnested : begun.context.Nested := nested_initial group
  rcases runEvents_cases b (fun event h => h) ⟨0, 0, 0, 0⟩ hnested with
    ⟨summary, s, hevents, hstatements, hmismatches⟩ |
    ⟨before, statement, after, line, summary, s, hsplit, hbefore, hslot, hevents⟩
  · refine .inl ⟨{ summary with errors := s.endDocument.errors }, s, ?_, ⟨summary, hevents⟩, ?_, ?_,
      fun before event after hsplit =>
        ran_event (fun event h => h) hnested ⟨summary, hevents⟩ hsplit⟩
    · exact compile_of_ok hevents
    · simpa using hstatements
    · simpa using hmismatches
  · refine .inr ⟨before, statement, after, line, s, hsplit, ⟨summary, hbefore⟩, hslot, ?_⟩
    exact compile_of_error hevents

/-- A slot given to a target ends the document on its line. -/
example :
    ((Compiler.standard true "General").compile Registry.builder
      ⟨"rt.compositor",
        "compositor P \x7b technique \x7b\ntarget rt \x7b\n\ninput 0 rt\n\x7d \x7d \x7d\n"⟩
      (Registry.empty .standard)).1 = .error (slotError 4) := by
  rfl

end Session
end Script
end Compositing
