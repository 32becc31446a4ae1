import Compositing.Proofs.Language.Cutting
import Compositing.Proofs.Language.Running

/-! # What a handler is called with

    A handler that keeps a log of its calls runs as it does without.  The log
    of a run is told by the events of the document alone and the answers given
    so far: every unit of a statement in order, with the reader of its own
    arguments, up to an answer that ends the statement; every mismatch in its
    place; the beginning of the document first, and its end last unless an
    error came before.  What a handler leaves unread is nowhere in it. -/

namespace Compositing

/-! ## Logs -/

/-- A call of a handler; that for a unit with the answer to it. -/
inductive Handler.Call (α ε : Type) where
  | began (document : Document)
  | unit (action : α) (token : Token) (arguments : Arguments) (answer : Except ε Flow)
  | mismatch (mismatch : Mismatch)
  | ended

/-- The call for a unit. -/
def ActionUnit.call {α ε : Type} (u : ActionUnit α) (answer : Except ε Flow) :
    Handler.Call α ε :=
  .unit u.action u.token u.reader answer

/-- The statement of an event, if it is one. -/
def Event.statement? : Event → Option Statement
  | .statement s => some s
  | .mismatch _ => none

/-- The mismatch of an event, if it is one. -/
def Event.mismatch? : Event → Option Mismatch
  | .statement _ => none
  | .mismatch m => some m

namespace Handler
variable {α σ ε : Type}

/-- Is the call for a unit? -/
def Call.isUnit : Call α ε → Bool
  | .unit .. => true
  | _ => false

/-- The handler with a log of its calls beside its state. -/
def logged (h : Handler α σ ε) : Handler α (σ × List (Call α ε)) ε where
  beginDocument d s := (h.beginDocument d s.1, s.2 ++ [.began d])
  dispatch action token arguments s :=
    let (answer, unread, state) := h.dispatch action token arguments s.1
    (answer, unread, state, s.2 ++ [.unit action token arguments answer])
  mismatch m s := (h.mismatch m s.1, s.2 ++ [.mismatch m])
  endDocument s := (h.endDocument s.1, s.2 ++ [.ended])

/-- The handler, but that it leaves what `unread` says of the arguments of a unit. -/
def leaving (h : Handler α σ ε) (unread : α → Token → Arguments → σ → Arguments) :
    Handler α σ ε where
  beginDocument := h.beginDocument
  dispatch action token arguments s :=
    let (answer, _, state) := h.dispatch action token arguments s
    (answer, unread action token arguments s, state)
  mismatch := h.mismatch
  endDocument := h.endDocument

/-- Units were handed over in order and answered, up to an error, a skip or their end; `result` is
    what comes of it, the number of units handed over if not an error. -/
inductive Handed : (units : List (ActionUnit α)) →
    (answered : List (ActionUnit α × Except ε Flow)) →
    (result : Except (RunError ε) Nat) → Prop where
  | done : Handed [] [] (.ok 0)
  | fails {u rest error} : Handed (u :: rest) [(u, .error error)] (.error (.handler error))
  | skips {u rest} : Handed (u :: rest) [(u, .ok .skipStatement)] (.ok 1)
  | goesOn {u rest answered result} (hrest : Handed rest answered result) :
    Handed (u :: rest) ((u, .ok .continue) :: answered) (result.map (· + 1))

/-- The calls for events in order and what comes of them.  A statement whose first token has no
    action is not begun; any other has its units handed over. -/
inductive Heard (action? : Nat → Option α) :
    List Event → List (Call α ε) → Except (RunError ε) Summary → Prop where
  | done : Heard action? [] [] (.ok ⟨0, 0, 0, 0⟩)
  | mismatch {m rest calls result} (hrest : Heard action? rest calls result) :
    Heard action? (.mismatch m :: rest) (.mismatch m :: calls) (result.map (⟨0, 0, 1, 0⟩ + ·))
  | statement {statement units answered count rest calls result}
    (hcut : ActionUnit.IsCut action? statement.tokens units)
    (hhanded : Handed units answered (.ok count)) (hrest : Heard action? rest calls result) :
    Heard action? (.statement statement :: rest)
      (answered.map (fun (u, answer) => u.call answer) ++ calls)
      (result.map (⟨1, count, 0, 0⟩ + ·))
  | fails {statement units answered error rest}
    (hcut : ActionUnit.IsCut action? statement.tokens units)
    (hhanded : Handed units answered (.error error)) :
    Heard action? (.statement statement :: rest)
      (answered.map fun (u, answer) => u.call answer) (.error error)
  | noAction {statement t tokens rest} (htokens : statement.tokens = t :: tokens)
    (haction : action? t.id = none) :
    Heard action? (.statement statement :: rest) [] (.error (.noAction t))

/-! ## Handing over units -/

variable {h : Handler α σ ε}

/-- A unit is handed over with its own reader. -/
theorem logged_dispatch (u : ActionUnit α) (s : σ) (log : List (Call α ε)) :
    h.logged.dispatch u.action u.token u.reader (s, log) =
      ((h.dispatch u.action u.token u.reader s).1, (h.dispatch u.action u.token u.reader s).2.1,
        (h.dispatch u.action u.token u.reader s).2.2,
        log ++ [u.call (h.dispatch u.action u.token u.reader s).1]) := rfl

/-- Handing over units logs the calls for those that are answered. -/
theorem runUnits_logged (units : List (ActionUnit α)) (s : σ) (log : List (Call α ε)) :
    ∃ answered result s', Handed units answered result ∧
      h.logged.runUnits units (s, log) =
        (result, s', log ++ answered.map fun (u, answer) => u.call answer) := by
  -- the answer to the first unit says whether there is more to hand over
  induction units generalizing s log with
  | nil =>
    refine ⟨[], .ok 0, s, .done, ?_⟩
    rw [runUnits, List.map_nil, List.append_nil]
  | cons u rest ih =>
    rw [runUnits, logged_dispatch]
    rcases h.dispatch u.action u.token u.reader s with ⟨answer, unread, s₁⟩
    cases answer with
    | error error => exact ⟨_, _, _, .fails, rfl⟩
    | ok flow =>
      cases flow with
      | skipStatement => exact ⟨_, _, _, .skips, rfl⟩
      | «continue» =>
        obtain ⟨answered, result, s', hhanded, hrun⟩ :=
          ih s₁ (log ++ [u.call (.ok .continue)])
        refine ⟨_, _, s', .goesOn hhanded, ?_⟩
        rw [List.append_assoc] at hrun
        simp only [hrun]
        cases result <;> rfl

/-- What comes of units handed over is never that a statement begins with no action. -/
theorem Handed.ne_noAction {units : List (ActionUnit α)}
    {answered : List (ActionUnit α × Except ε Flow)} {result : Except (RunError ε) Nat}
    (hhanded : Handed units answered result) (t : Token) : result ≠ .error (.noAction t) := by
  induction hhanded with
  | done | fails | skips => nofun
  | @goesOn _ _ _ result _ ih =>
    intro heq
    cases result with
    | ok count => cases heq
    | error error => exact ih heq

/-- As many units are counted as were handed over. -/
theorem Handed.count_eq {units : List (ActionUnit α)}
    {answered : List (ActionUnit α × Except ε Flow)} {result : Except (RunError ε) Nat}
    {count : Nat} (hhanded : Handed units answered result) (hresult : result = .ok count) :
    count = answered.length := by
  induction hhanded generalizing count with
  | done | skips =>
    cases hresult
    rfl
  | fails => cases hresult
  | @goesOn _ _ _ result _ ih =>
    cases result with
    | error error => cases hresult
    | ok others =>
      have hcount : others + 1 = count := Except.ok.inj hresult
      rw [List.length_cons, ← ih rfl, hcount]

/-! ## Statements -/

/-- A statement whose first token has no action is not begun; any other is made of units, which are
    handed over. -/
theorem runStatement_logged (h : Handler α σ ε) (action? : Nat → Option α)
    (statement : Statement) (s : σ) (log : List (Call α ε)) :
    (∃ t rest, statement.tokens = t :: rest ∧ action? t.id = none ∧
      h.logged.runStatement action? statement (s, log) = (.error (.noAction t), s, log)) ∨
    (∃ units answered result s', ActionUnit.IsCut action? statement.tokens units ∧
      Handed units answered result ∧
      h.logged.runStatement action? statement (s, log) =
        (result, s', log ++ answered.map fun (u, answer) => u.call answer)) := by
  unfold runStatement
  rcases hcut : ActionUnit.cut action? statement.tokens with ⟨leading, units⟩
  cases leading with
  | nil =>
    obtain ⟨answered, result, s', hhanded, hrun⟩ := runUnits_logged (h := h) units s log
    exact .inr ⟨units, answered, result, s', ActionUnit.isCut_iff.mpr hcut, hhanded, hrun⟩
  | cons t leading =>
    obtain ⟨hleading, rest, htokens, _⟩ := ActionUnit.isCut_of_cut hcut
    exact .inl ⟨t, leading ++ rest, htokens, hleading t List.mem_cons_self, rfl⟩

/-! ## Events -/

theorem summary_add (a b : Summary) :
    a + b = ⟨a.statements + b.statements, a.actions + b.actions, a.mismatches + b.mismatches,
      a.errors + b.errors⟩ := rfl

/-- What was counted in three turns. -/
theorem map_summary_add (a b : Summary) (result : Except (RunError ε) Summary) :
    (result.map (b + ·)).map (a + ·) = result.map (a + b + ·) := by
  cases result with
  | error error => rfl
  | ok c =>
    have hassoc : a + (b + c) = a + b + c := by
      simp only [summary_add, Nat.add_assoc]
    exact congrArg Except.ok hassoc

/-- Running events logs the calls for them. -/
theorem runEvents_logged (h : Handler α σ ε) (action? : Nat → Option α) (events : List Event)
    (summary : Summary) (s : σ) (log : List (Call α ε)) :
    ∃ calls result s', Heard action? events calls result ∧
      h.logged.runEvents action? events summary (s, log) =
        (result.map (summary + ·), s', log ++ calls) := by
  -- the summary so far, the state and the log change from event to event, `Heard` does not know
  -- of any of them
  induction events generalizing summary s log with
  | nil =>
    refine ⟨[], _, s, .done, ?_⟩
    rw [runEvents, List.append_nil]
    rfl
  | cons event rest ih =>
    cases event with
    | mismatch m =>
      obtain ⟨calls, result, s', hheard, hrun⟩ :=
        ih (summary + ⟨0, 0, 1, 0⟩) (h.mismatch m s) (log ++ [.mismatch m])
      refine ⟨_, _, s', .mismatch hheard, ?_⟩
      have hstep : h.logged.runEvents action? (.mismatch m :: rest) summary (s, log) =
          h.logged.runEvents action? rest (summary + ⟨0, 0, 1, 0⟩)
            (h.mismatch m s, log ++ [.mismatch m]) := rfl
      rw [hstep, hrun, List.append_assoc, map_summary_add]
      rfl
    | statement statement =>
      rw [runEvents]
      rcases runStatement_logged h action? statement s log with
        ⟨t, tokens, htokens, haction, hstatement⟩ |
        ⟨units, answered, result, s₁, hcut, hhanded, hstatement⟩
      · refine ⟨[], _, s, .noAction htokens haction, ?_⟩
        rw [hstatement, List.append_nil]
        rfl
      · rw [hstatement]
        cases result with
        | error error => exact ⟨_, _, s₁, .fails hcut hhanded, rfl⟩
        | ok count =>
          obtain ⟨calls, result, s', hheard, hrun⟩ := ih (summary + ⟨1, count, 0, 0⟩) s₁
            (log ++ answered.map fun (u, answer) => u.call answer)
          refine ⟨_, _, s', .statement hcut hhanded hheard, ?_⟩
          rw [List.append_assoc] at hrun
          rw [map_summary_add, ← hrun]
          rfl

/-- What is counted of a run over events. -/
theorem Heard.summary_eq {action? : Nat → Option α} {events : List Event}
    {calls : List (Call α ε)} {result : Except (RunError ε) Summary}
    (hheard : Heard action? events calls result) {summary : Summary}
    (hresult : result = .ok summary) :
    summary = ⟨(events.filterMap Event.statement?).length, calls.countP Call.isUnit,
      (events.filterMap Event.mismatch?).length, 0⟩ := by
  induction hheard generalizing summary with
  | done =>
    cases hresult
    rfl
  | fails | noAction => cases hresult
  | @mismatch m rest calls result _ ih =>
    cases result with
    | error error => cases hresult
    | ok others =>
      have hsummary : ⟨0, 0, 1, 0⟩ + others = summary := Except.ok.inj hresult
      rw [← hsummary, ih rfl, summary_add]
      simp [List.filterMap_cons, Event.statement?, Event.mismatch?, Call.isUnit, Nat.add_comm]
  | @statement statement units answered count rest calls result _ hhanded _ ih =>
    cases result with
    | error error => cases hresult
    | ok others =>
      have hcount := hhanded.count_eq rfl
      have hunits : (answered.map fun (u, answer) => u.call answer).countP Call.isUnit =
          answered.length := by
        rw [List.countP_map]
        exact List.countP_eq_length.mpr fun _ _ => rfl
      have hsummary : ⟨1, count, 0, 0⟩ + others = summary := Except.ok.inj hresult
      rw [← hsummary, ih rfl, summary_add, List.countP_append, hunits, hcount]
      simp [List.filterMap_cons, Event.statement?, Event.mismatch?, Nat.add_comm]

/-- Only units that are there are answered. -/
theorem Handed.mem_of_answered {units : List (ActionUnit α)}
    {answered : List (ActionUnit α × Except ε Flow)} {result : Except (RunError ε) Nat}
    (hhanded : Handed units answered result) : ∀ pair ∈ answered, pair.1 ∈ units := by
  induction hhanded with
  | done => nofun
  | fails | skips =>
    intro pair hpair
    rw [List.mem_singleton.mp hpair]
    exact List.mem_cons_self
  | goesOn _ ih =>
    rw [List.forall_mem_cons]
    exact ⟨List.mem_cons_self, fun pair hpair => List.mem_cons_of_mem _ (ih pair hpair)⟩

/-- A call is made for a mismatch that is among the events, or for a unit that begins with a token
    of a statement among them. -/
inductive Call.IsOf (events : List Event) : Call α ε → Prop where
  | mismatch {m} (hm : .mismatch m ∈ events) : IsOf events (.mismatch m)
  | unit {statement action token arguments answer}
    (hstatement : .statement statement ∈ events) (htoken : token ∈ statement.tokens) :
    IsOf events (.unit action token arguments answer)

theorem Call.IsOf.cons {event : Event} {events : List Event} {call : Call α ε}
    (h : call.IsOf events) : call.IsOf (event :: events) := by
  cases h with
  | mismatch hm => exact .mismatch (List.mem_cons_of_mem event hm)
  | unit hstatement htoken => exact .unit (List.mem_cons_of_mem event hstatement) htoken

/-- The calls for a statement are for its units. -/
theorem Handed.isOf {action? : Nat → Option α} {statement : Statement} {events : List Event}
    {units : List (ActionUnit α)} {answered : List (ActionUnit α × Except ε Flow)}
    {result : Except (RunError ε) Nat} (hhanded : Handed units answered result)
    (hcut : ActionUnit.IsCut action? statement.tokens units) :
    ∀ call ∈ answered.map fun (u, answer) => u.call answer,
      call.IsOf (.statement statement :: events) := by
  intro call hcall
  obtain ⟨⟨u, answer⟩, hpair, rfl⟩ := List.mem_map.mp hcall
  have hu := hhanded.mem_of_answered _ hpair
  refine .unit List.mem_cons_self ?_
  rw [hcut.tokens_eq]
  exact List.mem_flatMap.mpr ⟨u, hu, List.mem_cons_self⟩

/-- Every call is one for an event. -/
theorem Heard.isOf {action? : Nat → Option α} {events : List Event} {calls : List (Call α ε)}
    {result : Except (RunError ε) Summary} (hheard : Heard action? events calls result) :
    ∀ call ∈ calls, call.IsOf events := by
  induction hheard with
  | done | noAction => nofun
  | mismatch _ ih =>
    rw [List.forall_mem_cons]
    exact ⟨.mismatch List.mem_cons_self, fun call hcall => (ih call hcall).cons⟩
  | statement hcut hhanded _ ih =>
    intro call hcall
    rcases List.mem_append.mp hcall with hcall | hcall
    · exact hhanded.isOf hcut call hcall
    · exact (ih call hcall).cons
  | fails hcut hhanded => exact hhanded.isOf hcut

/-! ## Documents -/

/-- The calls after the events of a document. -/
def closing (result : Except (RunError ε) Summary) : List (Call α ε) :=
  match result with
  | .ok _ => [.ended]
  | .error _ => []

/-- Keeping a log changes nothing but the log. -/
theorem follows_logged (h : Handler α σ ε) :
    h.Follows h.logged 0 0 id fun s t => t.1 = s := by
  constructor
  · rintro u s ⟨_, log⟩ rfl
    rw [u.moved_zero]
    exact ⟨(mapError_id _).symm, rfl⟩
  · rintro m s ⟨_, log⟩ rfl
    rfl

/-- What is left unread changes nothing. -/
theorem follows_leaving (h : Handler α σ ε) (unread : α → Token → Arguments → σ → Arguments) :
    h.Follows (h.leaving unread) 0 0 id Eq := by
  constructor
  · rintro u s _ rfl
    rw [u.moved_zero]
    exact ⟨(mapError_id _).symm, rfl⟩
  · rintro m s _ rfl
    rfl

end Handler

namespace Language
variable {α σ ε : Type}

open Handler

/-- The log of a document: its beginning, the calls for its events, and its end if there was no
    error. -/
theorem run_logged (l : Language α) (h : Handler α σ ε) (d : Document) (s : σ) :
    ∃ calls, Heard l.lexicon.action? (l.events d.text.toList) calls (l.run h d s).1 ∧
      l.run h.logged d (s, []) =
        ((l.run h d s).1, (l.run h d s).2, .began d :: (calls ++ closing (l.run h d s).1)) := by
  obtain ⟨calls, result, s', hheard, hevents⟩ := runEvents_logged h l.lexicon.action?
    (l.events d.text.toList) ⟨0, 0, 0, 0⟩ (h.beginDocument d s) [.began d]
  have hlogged : ∃ s'', l.run h.logged d (s, []) =
      (result, s'', .began d :: (calls ++ closing result)) := by
    have hbegun : h.logged.beginDocument d (s, []) = (h.beginDocument d s, [.began d]) := rfl
    unfold Language.run
    simp only [hbegun, hevents]
    cases result with
    | error error =>
      refine ⟨s', ?_⟩
      rw [closing, List.append_nil]
      rfl
    | ok summary =>
      refine ⟨h.endDocument s', ?_⟩
      simp only [Except.map, Summary.zero_add]
      rfl
  obtain ⟨s'', hlogged⟩ := hlogged
  -- what comes of the logged run is what comes of the plain one
  have hfollows : (l.run h.logged d (s, [])).1 = (l.run h d s).1 ∧
      (l.run h.logged d (s, [])).2.1 = (l.run h d s).2 :=
    (follows_logged h).run (fun hrelated => congrArg h.endDocument hrelated) l d rfl
  rw [hlogged] at hfollows
  obtain ⟨hresult, hstate⟩ := hfollows
  refine ⟨calls, ?_, ?_⟩
  · rw [← hresult]
    exact hheard
  · rw [hlogged, ← hresult, ← hstate]

/-- Splitting a document loses and duplicates nothing.  A statement whose first token has no
    action ends the document at the line of that token, before any unit of it is handed over, and
    nothing else does so but an error of the handler.  Any other statement is made of units in one
    way, and these are handed over in order, each with the reader of its own arguments, up to an
    error, a skip or their end.  What is left unread has no influence.  A whole document is begun,
    its statements and mismatches are heard in the order of its events, and it is ended unless
    there was an error; without one the summary counts the statements, the units handed over and
    the mismatches. -/
theorem run_splits (l : Language α) (h : Handler α σ ε) :
    (∀ (statement : Statement) (s : σ),
      (∃ t rest, statement.tokens = t :: rest ∧ l.lexicon.action? t.id = none ∧
        h.logged.runStatement l.lexicon.action? statement (s, []) =
          (.error (.noAction t), s, []) ∧
        ∀ message : ε → String, (RunError.noAction t).message message = inconsistencyText t.line
          ("statement starts with " ++ t.text ++ " which triggers no action")) ∨
      (∃ units answered result s',
        (∀ others, ActionUnit.IsCut l.lexicon.action? statement.tokens others ↔
          others = units) ∧
        Handed units answered result ∧ (∀ t, result ≠ .error (.noAction t)) ∧
        h.logged.runStatement l.lexicon.action? statement (s, []) =
          (result, s', answered.map fun (u, answer) => u.call answer))) ∧
    (∀ (unread : α → Token → Arguments → σ → Arguments) (d : Document) (s : σ),
      l.run (h.leaving unread) d s = l.run h d s) ∧
    (∀ (d : Document) (s : σ), ∃ calls,
      l.run h.logged d (s, []) =
        ((l.run h d s).1, (l.run h d s).2, .began d :: (calls ++ closing (l.run h d s).1)) ∧
      Heard l.lexicon.action? (l.events d.text.toList) calls (l.run h d s).1 ∧
      ((∃ error, (l.run h d s).1 = .error error) ∨
        (l.run h d s).1 = .ok ⟨((l.events d.text.toList).filterMap Event.statement?).length,
          calls.countP Call.isUnit,
          ((l.events d.text.toList).filterMap Event.mismatch?).length, 0⟩)) := by
  refine ⟨?_, ?_, ?_⟩
  · intro statement s
    rcases runStatement_logged h l.lexicon.action? statement s [] with
      ⟨t, rest, htokens, haction, hrun⟩ | ⟨units, answered, result, s', hcut, hhanded, hrun⟩
    · exact .inl ⟨t, rest, htokens, haction, hrun, fun _ => rfl⟩
    · refine .inr ⟨units, answered, result, s', ?_, hhanded, hhanded.ne_noAction, hrun⟩
      intro others
      constructor
      · intro hothers
        have hsame := hothers.cut_eq.symm.trans hcut.cut_eq
        exact congrArg Prod.snd hsame
      · rintro rfl
        exact hcut
  · intro unread d s
    obtain ⟨hresult, hstate⟩ := (follows_leaving h unread).run
      (fun hrelated => congrArg h.endDocument hrelated) l d
      (rfl : h.beginDocument d s = h.beginDocument d s)
    exact Prod.ext hresult hstate.symm
  · intro d s
    obtain ⟨calls, hheard, hlogged⟩ := run_logged l h d s
    refine ⟨calls, hlogged, hheard, ?_⟩
    cases hresult : (l.run h d s).1 with
    | error error => exact .inl ⟨error, rfl⟩
    | ok summary => exact .inr (congrArg Except.ok (hheard.summary_eq hresult))

end Language
end Compositing
