import Compositing.Proofs.Language.Running
import Compositing.Proofs.Script.Outcome
import Compositing.Proofs.Script.Sections

/-! # Misplaced statements

    A statement with a unit belongs in a block or not as a whole: it is one
    unit, or options that all belong in a pass.  One that does not belong where
    it stands is reported once and changes nothing; one that does is never
    reported as misplaced.

    An option block without options has no unit, and what has no unit is not
    dispatched.  So it passes unnoticed, in a pass and anywhere else. -/

namespace Compositing.Script

/-- Each unit of the statement belongs in the innermost open block. -/
def Context.IsPlaceOf (c : Context) (action? : Nat → Option Action) (statement : Statement) :
    Prop :=
  ∀ u ∈ (ActionUnit.cut action? statement.tokens).2, (UnitShape.ofUnit u).BelongsIn c

/-! ## Options -/

/-- The unit is an option of a clear or of a stencil block. -/
def UnitShape.IsOption (u : UnitShape) : Prop :=
  u.action ∈ clearOptions ∨ u.action ∈ stencilOptions

/-- A statement is one unit, or all its units are options. -/
theorem StatementShape.single_or_options {units : List UnitShape} (h : StatementShape units) :
    (∃ u, units = [u]) ∨ ∀ u ∈ units, u.IsOption := by
  cases h with
  | single _ _ _ => exact .inl ⟨_, rfl⟩
  | clear h => exact .inr fun u hu => .inl (h u hu).1
  | stencil h => exact .inr fun u hu => .inr (h u hu).1

namespace UnitShape.IsOption
variable {u : UnitShape} {context : Context}

/-- Options belong in a pass. -/
theorem belongsIn_iff (h : u.IsOption) : u.BelongsIn context ↔ context.innermost = .pass := by
  obtain ⟨action, arguments⟩ := u
  have hoption : action ∈ clearOptions ∨ action ∈ stencilOptions := h
  cases action with
  | buffers | colourValue | depthValue | stencilValue | check | compFunc | refValue | mask
  | failOp | depthFailOp | passOp | twoSided => exact Iff.rfl
  | _ => exact absurd hoption (by decide)

theorem action_ne_input (h : u.IsOption) : u.action ≠ .input := by
  intro heq
  unfold IsOption at h
  rw [heq] at h
  exact absurd h (by decide)

theorem opensBlock (h : u.IsOption) : u.action.opensBlock = false := by
  have hclear : ∀ action ∈ clearOptions, action.opensBlock = false := by decide
  have hstencil : ∀ action ∈ stencilOptions, action.opensBlock = false := by decide
  exact h.elim (hclear _) (hstencil _)

/-- What an option asks for is an attribute. -/
theorem eq_set_of_read (h : u.IsOption) {token : Token} {arguments rest : Arguments}
    {command : Command}
    (hread : (Command.read context token u.action).run arguments = (.ok command, rest)) :
    ∃ object attr, command = .set object attr := by
  have hadmits := admits_of_read hread
  obtain ⟨action, kinds⟩ := u
  have hoption : action ∈ clearOptions ∨ action ∈ stencilOptions := h
  cases action with
  | buffers | colourValue | depthValue | stencilValue | check | compFunc | refValue | mask
  | failOp | depthFailOp | passOp | twoSided =>
    obtain ⟨_, target, attr, _, _, hcommand⟩ | ⟨_, pass, attr, _, hcommand⟩ := hadmits
    · exact ⟨target, _, hcommand⟩
    · exact ⟨pass, _, hcommand⟩
  | _ => exact absurd hoption (by decide)

end UnitShape.IsOption

/-! ## Units -/

section
variable {context : Context} {u : ActionUnit Action}

/-- A unit that stands where it belongs is read to a command. -/
theorem read_of_belongs (hnested : context.Nested) (hfits : (UnitShape.ofUnit u).Fits)
    (hbelongs : (UnitShape.ofUnit u).BelongsIn context) :
    ∃ command rest,
      (Command.read context u.token u.action).run u.reader = (.ok command, rest) := by
  have hhave : Arguments.Have (UnitShape.ofUnit u).arguments u.reader := rfl
  have hok : ∃ command,
      ((Command.read context u.token u.action).run u.reader).1 = .ok command := by
    by_cases hinput : (UnitShape.ofUnit u).action = .input
    · obtain ⟨action, token, arguments⟩ := u
      have haction : action = .input := hinput
      subst haction
      refine (ends_readInput token hnested hfits ?_ _ hhave).1 hbelongs
      -- a slot belongs in a pass, not in a target
      rintro ⟨htarget, _, x, name, hslot⟩
      have hpass : UnitShape.BelongsIn
          ⟨.input, (UnitShape.ofUnit ⟨.input, token, arguments⟩).arguments⟩ context := hbelongs
      rw [hslot] at hpass
      cases htarget.symm.trans hpass
    · exact (ends_read u.token hnested hfits hinput _ hhave).1 hbelongs
  obtain ⟨command, hcommand⟩ := hok
  exact ⟨command, _, Prod.ext hcommand rfl⟩

/-- A unit that stands elsewhere is refused, as misplaced unless it is an `input`. -/
theorem read_of_strays (hnested : context.Nested) (hfits : (UnitShape.ofUnit u).Fits)
    (hslot : ¬ IsSlotOfTarget context u.action (u.arguments.map (·.kind)))
    (hstrays : ¬ (UnitShape.ofUnit u).BelongsIn context) :
    ∃ refusal rest,
      (Command.read context u.token u.action).run u.reader = (.error (.refused refusal), rest) ∧
      (u.action ≠ .input → refusal.kind = .misplaced) := by
  have hhave : Arguments.Have (UnitShape.ofUnit u).arguments u.reader := rfl
  by_cases hinput : (UnitShape.ofUnit u).action = .input
  · obtain ⟨action, token, arguments⟩ := u
    have haction : action = .input := hinput
    subst haction
    obtain ⟨refusal, hrefusal⟩ := (ends_readInput token hnested hfits hslot _ hhave).2 hstrays
    exact ⟨refusal, _, Prod.ext hrefusal rfl, fun hne => absurd rfl hne⟩
  · obtain ⟨refusal, hrefusal, hkind⟩ :=
      (ends_read u.token hnested hfits hinput _ hhave).2 hstrays
    exact ⟨refusal, _, Prod.ext hrefusal rfl, fun _ => hkind⟩

end

namespace Session
variable {σ : Type} {b : Builder σ} {s s' : Session σ} {u : ActionUnit Action}

/-- A unit that stands elsewhere is reported; if it is misplaced, what follows it in its
    statement is not looked at. -/
theorem dispatch_of_strays (b : Builder σ) (hskip : s.context.skipDepth = 0)
    (hnested : s.context.Nested) (hfits : (UnitShape.ofUnit u).Fits)
    (hslot : ¬ IsSlotOfTarget s.context u.action (u.arguments.map (·.kind)))
    (hstrays : ¬ (UnitShape.ofUnit u).BelongsIn s.context) :
    ∃ refusal rest,
      s.dispatch b u.action u.token u.reader =
        (.ok refusal.flow, rest, s.refuse u.action u.token refusal) ∧
      (u.action ≠ .input → refusal.flow = .skipStatement) := by
  obtain ⟨refusal, rest, hread, hkind⟩ := read_of_strays hnested hfits hslot hstrays
  refine ⟨refusal, rest, ?_, fun hne => ?_⟩
  · unfold dispatch
    rw [if_neg (by omega), hread]
  · rw [Refusal.flow, hkind hne]

/-- A unit that stands where it belongs is not misplaced: at most the builder refuses what it
    asks for. -/
theorem dispatch_of_belongs (b : Builder σ) (hskip : s.context.skipDepth = 0)
    (hnested : s.context.Nested) (hfits : (UnitShape.ofUnit u).Fits)
    (hbelongs : (UnitShape.ofUnit u).BelongsIn s.context) :
    ∃ rest s', s.dispatch b u.action u.token u.reader = (.ok .continue, rest, s') ∧
      (∃ new, s'.diagnostics = s.diagnostics ++ new ∧ ∀ d ∈ new, d.kind ≠ .misplaced) ∧
      ((UnitShape.ofUnit u).IsOption → s'.context = s.context) := by
  obtain ⟨command, rest, hread⟩ := read_of_belongs hnested hfits hbelongs
  have hd := dispatched b s u.action u.token u.reader
  generalize s.dispatch b u.action u.token u.reader = outcome at hd ⊢
  cases hd with
  | skipped hskip' => omega
  | inconsistent _ hread' | unread _ hread' =>
    rw [hread] at hread'
    cases hread'
  | @ungranted _ rest error s₁ _ _ hexecute =>
    have hrequested := execute_error hexecute
    refine ⟨rest, _, rfl, ⟨[s₁.diagnostic .domainValue u.token.line error.message], ?_, ?_⟩, ?_⟩
    · rw [refuse_diagnostics, hrequested.diagnostics]
      rfl
    · intro d hmem
      rw [List.mem_singleton.mp hmem]
      show DiagnosticKind.domainValue ≠ .misplaced
      decide
    · intro hoption
      have hopens : u.action.opensBlock = false := hoption.opensBlock
      show { s₁.context with
        skipDepth := if u.action.opensBlock then 1 else s₁.context.skipDepth } = s.context
      rw [hopens]
      exact hrequested.context
  | done _ hread' hexecute =>
    obtain ⟨handle, s₁, hrequested, rfl⟩ := execute_ok hexecute
    refine ⟨_, _, rfl, ⟨[], ?_, by simp⟩, ?_⟩
    · rw [List.append_nil]
      exact hrequested.diagnostics
    · intro hoption
      obtain ⟨object, attr, rfl⟩ := hoption.eq_set_of_read hread'
      rfl

/-- Options in a pass are all handed over, and none is misplaced. -/
theorem runUnits_of_options (b : Builder σ) {units : List (ActionUnit Action)}
    (hskip : s.context.skipDepth = 0) (hnested : s.context.Nested)
    (hunits : ∀ u ∈ units, (UnitShape.ofUnit u).Fits ∧ (UnitShape.ofUnit u).IsOption ∧
      (UnitShape.ofUnit u).BelongsIn s.context) :
    ∃ count s' new, (handler b).runUnits units s = (.ok count, s') ∧
      s'.diagnostics = s.diagnostics ++ new ∧ ∀ d ∈ new, d.kind ≠ .misplaced := by
  -- an option leaves the context alone, so that the others still stand where they belong
  induction units generalizing s with
  | nil => exact ⟨0, s, [], rfl, (List.append_nil _).symm, by simp⟩
  | cons u units ih =>
    rw [List.forall_mem_cons] at hunits
    obtain ⟨⟨hfits, hoption, hbelongs⟩, hrest⟩ := hunits
    obtain ⟨rest, s₁, hdispatch, ⟨new, hnew, hkinds⟩, hcontext⟩ :=
      dispatch_of_belongs b hskip hnested hfits hbelongs
    have hcontext := hcontext hoption
    rw [← hcontext] at hskip hnested hrest
    obtain ⟨count, s₂, more, hrun, hmore, hmorekinds⟩ := ih hskip hnested hrest
    refine ⟨count + 1, s₂, new ++ more, ?_, ?_, ?_⟩
    · simp only [Handler.runUnits, handler_dispatch, hdispatch, hrun]
    · rw [hmore, hnew, List.append_assoc]
    · intro d hmem
      exact (List.mem_append.mp hmem).elim (hkinds d) (hmorekinds d)

/-! ## Statements -/

section
variable {caseSensitive : Bool} {text : List Char} {statement : Statement}

/-- A statement that does not belong where it stands is reported once and changes nothing. -/
theorem runStatement_of_strays (b : Builder σ)
    (h : Event.statement statement ∈ (language caseSensitive).events text)
    (hskip : s.context.skipDepth = 0) (hnested : s.context.Nested)
    (hslot : ∀ line, ¬ s.SlotAt statement line)
    (hstrays : ¬ s.context.IsPlaceOf (language caseSensitive).lexicon.action? statement) :
    ∃ action token refusal,
      (handler b).runStatement (language caseSensitive).lexicon.action? statement s =
        (.ok 1, s.refuse action token refusal) := by
  obtain ⟨units, hcut, hshape, _⟩ := cut_statement h
  have hfits : ∀ u ∈ units, (UnitShape.ofUnit u).Fits :=
    fun u hu => hshape.fits (List.mem_map.mpr ⟨u, hu, rfl⟩)
  have hstrays : ∃ u ∈ units, ¬ (UnitShape.ofUnit u).BelongsIn s.context := by
    rw [Context.IsPlaceOf, hcut] at hstrays
    simpa using hstrays
  unfold Handler.runStatement
  rw [hcut]
  rcases hshape.single_or_options with ⟨shape, hsingle⟩ | hoptions
  · -- a single unit is dispatched, whatever becomes of the statement
    obtain ⟨u, rest, rfl, _, hrest⟩ := List.map_eq_cons_iff.mp hsingle
    obtain rfl := List.map_eq_nil_iff.mp hrest
    obtain ⟨u', hmem, hnot⟩ := hstrays
    obtain rfl := List.mem_singleton.mp hmem
    have hno : ¬ IsSlotOfTarget s.context u'.action (u'.arguments.map (·.kind)) := by
      rintro ⟨hin, hinput⟩
      exact hslot u'.token.line
        ⟨hskip, hin, (isSlotStatement_iff h hcut).mpr ⟨u', rfl, hinput, rfl⟩⟩
    obtain ⟨refusal, rest, hdispatch, _⟩ :=
      dispatch_of_strays b hskip hnested (hfits u' hmem) hno hnot
    exact ⟨_, _, refusal, runUnits_single hdispatch⟩
  · -- if one option strays all of them do, and the first ends the statement
    have hoptions : ∀ u ∈ units, (UnitShape.ofUnit u).IsOption :=
      fun u hu => hoptions _ (List.mem_map.mpr ⟨u, hu, rfl⟩)
    obtain ⟨u', hmem', hnot'⟩ := hstrays
    rw [(hoptions u' hmem').belongsIn_iff] at hnot'
    cases units with
    | nil => cases hmem'
    | cons u rest =>
      have hmem : u ∈ u :: rest := List.mem_cons_self
      have hne := (hoptions u hmem).action_ne_input
      have hnot : ¬ (UnitShape.ofUnit u).BelongsIn s.context := by
        rw [(hoptions u hmem).belongsIn_iff]
        exact hnot'
      obtain ⟨refusal, left, hdispatch, hflow⟩ :=
        dispatch_of_strays b hskip hnested (hfits u hmem) (fun hslot => hne hslot.2.1) hnot
      rw [hflow hne] at hdispatch
      refine ⟨u.action, u.token, refusal, ?_⟩
      simp only [Handler.runUnits, handler_dispatch, hdispatch]

/-- A statement that belongs where it stands is not reported as misplaced. -/
theorem runStatement_of_belongs (b : Builder σ)
    (h : Event.statement statement ∈ (language caseSensitive).events text)
    (hskip : s.context.skipDepth = 0) (hnested : s.context.Nested)
    (hplace : s.context.IsPlaceOf (language caseSensitive).lexicon.action? statement) :
    ∃ count s' new,
      (handler b).runStatement (language caseSensitive).lexicon.action? statement s =
        (.ok count, s') ∧
      s'.diagnostics = s.diagnostics ++ new ∧ ∀ d ∈ new, d.kind ≠ .misplaced := by
  obtain ⟨units, hcut, hshape, _⟩ := cut_statement h
  have hfits : ∀ u ∈ units, (UnitShape.ofUnit u).Fits :=
    fun u hu => hshape.fits (List.mem_map.mpr ⟨u, hu, rfl⟩)
  have hbelongs : ∀ u ∈ units, (UnitShape.ofUnit u).BelongsIn s.context := by
    intro u hu
    have hmem : u ∈ (ActionUnit.cut (language caseSensitive).lexicon.action?
        statement.tokens).2 := by rwa [hcut]
    exact hplace u hmem
  unfold Handler.runStatement
  rw [hcut]
  rcases hshape.single_or_options with ⟨shape, hsingle⟩ | hoptions
  · obtain ⟨u, rest, rfl, _, hrest⟩ := List.map_eq_cons_iff.mp hsingle
    obtain rfl := List.map_eq_nil_iff.mp hrest
    have hmem : u ∈ [u] := List.mem_singleton_self u
    obtain ⟨rest, s₁, hdispatch, ⟨new, hnew, hkinds⟩, _⟩ :=
      dispatch_of_belongs b hskip hnested (hfits u hmem) (hbelongs u hmem)
    exact ⟨1, s₁, new, runUnits_single hdispatch, hnew, hkinds⟩
  · refine runUnits_of_options b hskip hnested fun u hu => ⟨hfits u hu, ?_, hbelongs u hu⟩
    exact hoptions _ (List.mem_map.mpr ⟨u, hu, rfl⟩)

end

/-! ## Documents -/

section
variable {caseSensitive : Bool}

/-- What a statement does in a run is what running it does. -/
theorem runStatement_of_ran {before : List Event} {statement : Statement} {s₁ s₂ : Session σ}
    (h₁ : Ran b caseSensitive before s s₁)
    (h₂ : Ran b caseSensitive (before ++ [.statement statement]) s s₂) :
    ∃ count, (handler b).runStatement (language caseSensitive).lexicon.action? statement s₁ =
      (.ok count, s₂) := by
  obtain ⟨summary₁, h₁⟩ := h₁
  obtain ⟨summary₂, h₂⟩ := h₂
  rw [runEvents_append, h₁] at h₂
  simp only [Handler.runEvents] at h₂
  rcases hrun : (handler b).runStatement (language caseSensitive).lexicon.action? statement s₁
    with ⟨error | count, s₃⟩
  · simp [hrun] at h₂
  · simp only [hrun] at h₂
    cases h₂
    exact ⟨count, rfl⟩

/-- A compilation that does not fail goes through every event of its document. -/
theorem ran_of_ok {group : String} {d : Document} {builder : σ} {summary : Summary}
    (h : ((Compiler.standard caseSensitive group).compile b d builder).1 = .ok summary) :
    ∃ s, Ran b caseSensitive ((language caseSensitive).events d.text.toList)
      ((Session.new group builder).beginDocument d) s := by
  have hnested : ((Session.new group builder).beginDocument d).context.Nested :=
    nested_initial group
  rcases runEvents_cases b (fun event hmem => hmem) ⟨0, 0, 0, 0⟩ hnested with
    ⟨summary', s, hrun, _⟩ | ⟨_, _, _, _, _, _, _, _, _, herror⟩
  · exact ⟨s, summary', hrun⟩
  · rw [compile_of_error herror] at h
    cases h

end

/-- In a compilation that does not fail, take a statement that is met while no block is being
    skipped.  If one of its units does not belong where it stands, the statement is reported
    once, and neither the builder nor the section changes; otherwise it is not reported as
    misplaced.  A statement without a token, which is an option block without options, changes
    nothing and is not reported, wherever it stands. -/
theorem compile_misplaced {b : Builder σ} {caseSensitive : Bool} {group : String} {d : Document}
    {builder : σ} {summary : Summary}
    (h : ((Compiler.standard caseSensitive group).compile b d builder).1 = .ok summary)
    {before after : List Event} {statement : Statement}
    (hsplit : (language caseSensitive).events d.text.toList =
      before ++ .statement statement :: after) :
    let action? := (language caseSensitive).lexicon.action?
    let begun := (Session.new group builder).beginDocument d
    ∃ s₁ s₂, Ran b caseSensitive before begun s₁ ∧
      Ran b caseSensitive (before ++ [.statement statement]) begun s₂ ∧
      (s₁.context.skipDepth = 0 → ¬ s₁.context.IsPlaceOf action? statement →
        (∃ diagnostic, s₂.diagnostics = s₁.diagnostics ++ [diagnostic]) ∧
        s₂.builder = s₁.builder ∧ { s₂.context with skipDepth := 0 } = s₁.context) ∧
      (s₁.context.skipDepth = 0 → s₁.context.IsPlaceOf action? statement →
        ∃ new, s₂.diagnostics = s₁.diagnostics ++ new ∧ ∀ d ∈ new, d.kind ≠ .misplaced) ∧
      (statement.tokens = [] → s₂ = s₁) := by
  intro action? begun
  obtain ⟨s, hran⟩ := ran_of_ok h
  have hnested : begun.context.Nested := nested_initial group
  have hmem : ∀ event ∈ (language caseSensitive).events d.text.toList,
      event ∈ (language caseSensitive).events d.text.toList := fun _ h => h
  obtain ⟨s₁, s₂, hbefore, hthrough, _, hslot⟩ := ran_event hmem hnested hran hsplit
  have hevent : Event.statement statement ∈ (language caseSensitive).events d.text.toList := by
    rw [hsplit]
    simp
  have hnested₁ : s₁.context.Nested := by
    obtain ⟨_, hrun⟩ := hbefore
    exact nested_runEvents (fun event hin => by rw [hsplit]; simp [hin]) hnested hrun
  obtain ⟨count, hrun⟩ := runStatement_of_ran hbefore hthrough
  refine ⟨s₁, s₂, hbefore, hthrough, ?_, ?_, ?_⟩
  · intro hskip hstrays
    obtain ⟨action, token, refusal, hrefused⟩ := runStatement_of_strays b hevent hskip hnested₁
      (fun line => hslot statement line rfl) hstrays
    cases hrun.symm.trans hrefused
    refine ⟨⟨_, refuse_diagnostics s₁ action token refusal⟩, rfl, ?_⟩
    show { s₁.context with skipDepth := 0 } = s₁.context
    rw [← hskip]
  · intro hskip hplace
    obtain ⟨_, s₃, new, hrun', hnew, hkinds⟩ :=
      runStatement_of_belongs b hevent hskip hnested₁ hplace
    cases hrun.symm.trans hrun'
    exact ⟨new, hnew, hkinds⟩
  · intro htokens
    have hnone : (handler b).runStatement action? statement s₁ = (.ok 0, s₁) := by
      simp only [Handler.runStatement, htokens]
      rfl
    cases hrun.symm.trans hnone
    rfl

/-- A stencil block with two options at top level is reported once. -/
theorem compile_misplaced_stencil :
    let d : Document := ⟨"stencil.compositor", "stencil \x7b check on two_sided off \x7d"⟩
    let begun := (Session.new "General" (Registry.empty .standard)).beginDocument d
    ∃ statement s, (language true).events d.text.toList = [.statement statement] ∧
      Ran Registry.builder true [.statement statement] begun s ∧
      (∃ diagnostic, s.diagnostics = [diagnostic]) ∧ s.builder = begun.builder := by
  intro d begun
  let check : Token := ⟨Keyword.check.kind, 10, 1⟩
  let on : Token := ⟨Keyword.on.kind, 16, 1⟩
  let statement : Statement :=
    ⟨[check, on, ⟨Keyword.twoSided.kind, 19, 1⟩, ⟨Keyword.off.kind, 29, 1⟩], 0, 1⟩
  have hevents : (language true).events d.text.toList = [] ++ .statement statement :: [] := by
    decide +kernel
  have hcompiled : ((Compiler.standard true "General").compile Registry.builder d
      (Registry.empty .standard)).1.toOption = some ⟨1, 1, 0, 1⟩ := by
    decide +kernel
  obtain ⟨s₁, s₂, ⟨_, hbefore⟩, hthrough, hstrays, _⟩ := compile_misplaced (ok_of_toOption hcompiled) hevents
  cases hbefore
  have hplace : ¬ begun.context.IsPlaceOf (language true).lexicon.action? statement := by
    intro hplace
    have hunit : ⟨Action.check, check, [on]⟩ ∈
        (ActionUnit.cut (language true).lexicon.action? statement.tokens).2 := .head _
    cases hplace _ hunit
  obtain ⟨hreported, hbuilder, _⟩ := hstrays rfl hplace
  exact ⟨statement, s₂, hevents, hthrough, hreported, hbuilder⟩

/-- An empty clear block at top level is not reported. -/
example :
    let compiled := (Compiler.standard true "General").compile Registry.builder
      ⟨"clear.compositor", "clear \x7b \x7d"⟩ (Registry.empty .standard)
    compiled.1.toOption = some ⟨1, 0, 0, 0⟩ ∧ compiled.2.diagnostics = [] := by
  decide +kernel

end Session
end Compositing.Script
