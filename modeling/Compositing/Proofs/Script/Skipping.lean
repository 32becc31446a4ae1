import Compositing.Proofs.Script.Blocks

/-! # Refused blocks

    A block whose opener is refused is skipped as a unit.  Up to its brace
    every unit is answered `continue` and no argument of it is read, nothing is
    asked of the builder, and only mismatches are reported.  The brace leads
    back to the context before the opener.

    So what stands in a refused block is seen in the journal alone, and there
    only by its mismatches.  A session never looks at its journal, which is
    why two documents that differ in the content of a refused block go on
    alike. -/

namespace Compositing.Script

/-! ## Blocks of calls -/

namespace Call

/-- The mismatch that is reported by a call. -/
def mismatch? : Call → Option Mismatch
  | .dispatch _ _ _ => none
  | .mismatch m => some m

/-- The mismatches among calls. -/
def mismatches (cs : List Call) : List Mismatch := cs.filterMap mismatch?

/-- The number of open blocks after calls, if some are open before them. -/
def depth (cs : List Call) (blocks : Nat) : Nat :=
  cs.foldl (fun blocks call => call.count blocks) blocks

/-- Of the blocks that are open before some calls, the calls do not close the last. -/
def Inside (blocks : Nat) (cs : List Call) : Prop :=
  ∀ before, before <+: cs → 0 < depth before blocks

/-- The content of a block: it closes the blocks it opens, and no other. -/
structure Balanced (content : List Call) : Prop where
  inside : Inside 1 content
  depth : depth content 1 = 1

variable {blocks : Nat} {call : Call} {cs rest : List Call}

theorem inside_nil (h : 0 < blocks) : Inside blocks [] := by
  intro before hbefore
  rw [List.prefix_nil.mp hbefore]
  exact h

theorem Inside.cons (hopen : 0 < blocks) (h : Inside (call.count blocks) rest) :
    Inside blocks (call :: rest) := by
  intro before hbefore
  rcases List.prefix_cons_iff.mp hbefore with rfl | ⟨tail, rfl, htail⟩
  · exact hopen
  · exact h tail htail

theorem Inside.pos (h : Inside blocks cs) : 0 < blocks := h [] List.nil_prefix

theorem Inside.tail (h : Inside blocks (call :: rest)) : Inside (call.count blocks) rest :=
  fun before hbefore => h (call :: before) (List.cons_prefix_cons.mpr ⟨rfl, hbefore⟩)

/-- The content of a block is followed by the brace that closes it. -/
theorem depth_brace {content : List Call} (h : Balanced content) (token : Token)
    (arguments : Arguments) : depth (content ++ [.dispatch .closeBrace token arguments]) 1 = 0 := by
  have hcontent := h.depth
  simp only [depth, List.foldl_append] at hcontent ⊢
  rw [hcontent]
  rfl

@[simp] theorem mismatches_brace (content : List Call) (token : Token) (arguments : Arguments) :
    mismatches (content ++ [.dispatch .closeBrace token arguments]) = mismatches content := by
  simp [mismatches, mismatch?]

end Call

/-! ## Skipping -/

namespace Session
variable {σ : Type} {b : Builder σ} {s s' : Session σ}

/-- The report of a mismatch. -/
def mismatchEntry (s : Session σ) (m : Mismatch) : Entry :=
  .report (s.diagnostic .syntaxMismatch m.line m.message)

/-- The session after calls that are skipped: their blocks are counted and their mismatches are
    reported. -/
def skipped (cs : List Call) (s : Session σ) : Session σ :=
  { s with
    context := { s.context with skipDepth := Call.depth cs s.context.skipDepth }
    errors := s.errors + (Call.mismatches cs).length
    journal := ((Call.mismatches cs).map s.mismatchEntry).reverse ++ s.journal }

/-- What a mismatch reports does not depend on what is skipped before it. -/
theorem mismatchEntry_skipped (cs : List Call) (s : Session σ) :
    (s.skipped cs).mismatchEntry = s.mismatchEntry := rfl

theorem skipped_append (before after : List Call) (s : Session σ) :
    s.skipped (before ++ after) = (s.skipped before).skipped after := by
  rw [skipped.eq_1 after, mismatchEntry_skipped]
  simp [skipped, Call.mismatches, Call.depth, Nat.add_assoc]

/-- A unit in a refused block is passed over. -/
theorem dispatch_skipping (h : 0 < s.context.skipDepth) (action : Action) (token : Token)
    (arguments : Arguments) :
    s.dispatch b action token arguments = (.ok .continue, arguments,
      { s with context := { s.context with skipDepth := action.count s.context.skipDepth } }) := by
  unfold dispatch
  rw [if_pos h]
  rfl

theorem hear_skipping (h : 0 < s.context.skipDepth) (call : Call) :
    s.hear b call = s.skipped [call] := by
  cases call with
  | dispatch action token arguments =>
    simp only [hear, dispatch_skipping h]
    rfl
  | mismatch m => rfl

/-- Calls inside a refused block are skipped. -/
theorem hearAll_skipping {cs : List Call} (h : Call.Inside s.context.skipDepth cs) :
    s.hearAll b cs = s.skipped cs := by
  induction cs generalizing s with
  | nil => rfl
  | cons call rest ih =>
    calc s.hearAll b (call :: rest)
        = (s.skipped [call]).hearAll b rest := by rw [← hear_skipping h.pos]; rfl
      _ = (s.skipped [call]).skipped rest := ih h.tail
      _ = s.skipped (call :: rest) := (skipped_append [call] rest s).symm

/-- The brace of a refused block is skipped too. -/
theorem hearAll_brace {content : List Call} (hdepth : s.context.skipDepth = 1)
    (h : Call.Balanced content) (token : Token) (arguments : Arguments) :
    s.hearAll b (content ++ [.dispatch .closeBrace token arguments]) =
      s.skipped (content ++ [.dispatch .closeBrace token arguments]) := by
  have hcontent : s.hearAll b content = s.skipped content :=
    hearAll_skipping (hdepth ▸ h.inside)
  have hopen : 0 < (s.skipped content).context.skipDepth := by
    show 0 < Call.depth content s.context.skipDepth
    rw [hdepth, h.depth]
    decide
  calc s.hearAll b (content ++ [.dispatch .closeBrace token arguments])
      = (s.skipped content).hear b (.dispatch .closeBrace token arguments) := by
        rw [hearAll_append, hcontent]
        rfl
    _ = (s.skipped content).skipped [.dispatch .closeBrace token arguments] :=
        hear_skipping hopen _
    _ = s.skipped (content ++ [.dispatch .closeBrace token arguments]) :=
        (skipped_append _ _ s).symm

/-! ## Changes that no command sees -/

/-- A change of sessions that leaves the context and what is asked of the builder alone. -/
structure Unseen (b : Builder σ) (change : Session σ → Session σ) : Prop where
  context : ∀ s : Session σ, (change s).context = s.context
  enter : ∀ (s : Session σ) (c : Context),
    change { s with context := c } = { change s with context := c }
  createCompositor : ∀ (s : Session σ) (name : String), (change s).createCompositor b name =
    ((s.createCompositor b name).1, change (s.createCompositor b name).2)
  createChild : ∀ (s : Session σ) (parent : Handle) (kind : ChildKind),
    (change s).createChild b parent kind =
      ((s.createChild b parent kind).1, change (s.createChild b parent kind).2)
  setAttribute : ∀ (s : Session σ) (object : Handle) (attr : Attribute),
    (change s).setAttribute b object attr =
      ((s.setAttribute b object attr).1, change (s.setAttribute b object attr).2)

namespace Unseen
variable {change : Session σ → Session σ} (h : Unseen b change) (s : Session σ)
include h

theorem createChildWith (parent : Handle) (kind : ChildKind) (attr : Attribute) :
    (change s).createChildWith b parent kind attr =
      ((s.createChildWith b parent kind attr).1,
        change (s.createChildWith b parent kind attr).2) := by
  unfold Session.createChildWith
  rw [h.createChild]
  rcases s.createChild b parent kind with ⟨error | handle, s₁⟩
  · rfl
  · simp only [h.setAttribute]
    rcases s₁.setAttribute b handle attr with ⟨error | ⟨⟩, s₂⟩ <;> rfl

theorem opening (enter : Context → Handle → Context)
    (request : Except BuilderError Handle × Session σ) :
    opening enter (request.1, change request.2) =
      ((opening enter request).1, change (opening enter request).2) := by
  rcases request with ⟨error | handle, s₁⟩
  · rfl
  · show (_, { change s₁ with context := enter (change s₁).context handle }) = _
    rw [h.context, ← h.enter]
    rfl

/-- A command is carried out alike. -/
theorem execute (command : Command) :
    (change s).execute b command =
      ((s.execute b command).1, change (s.execute b command).2) := by
  cases command with
  | close =>
    show (_, { change s with context := (change s).context.close }) = _
    rw [h.context, ← h.enter]
    rfl
  | openCompositor name =>
    simp only [Session.execute, h.createCompositor]
    exact h.opening _ _
  | openTechnique parent | openOutputTarget parent =>
    simp only [Session.execute, h.createChild]
    exact h.opening _ _
  | openTarget parent _ | openPass parent _ =>
    simp only [Session.execute, h.createChildWith]
    exact h.opening _ _
  | set object attr => exact h.setAttribute s object attr

end Unseen

/-! ## What came before -/

/-- The session with the journal of an earlier one below its own. -/
def following (s past : Session σ) : Session σ :=
  { s with errors := past.errors + s.errors, journal := s.journal ++ past.journal }

section
variable (b : Builder σ) (s past : Session σ)

@[simp] theorem following_context : (s.following past).context = s.context := rfl

/-- No command sees what came before. -/
theorem following_unseen : Unseen b (following · past) :=
  ⟨fun _ => rfl, fun _ _ => rfl, fun _ _ => rfl, fun _ _ _ => rfl, fun _ _ _ => rfl⟩

/-- A unit is answered alike whatever came before. -/
theorem dispatch_following (action : Action) (token : Token) (arguments : Arguments) :
    (s.following past).dispatch b action token arguments =
      ((s.dispatch b action token arguments).1, (s.dispatch b action token arguments).2.1,
        (s.dispatch b action token arguments).2.2.following past) := by
  unfold dispatch
  rw [following_context]
  split
  · rfl
  · rcases (Command.read s.context token action).run arguments with
      ⟨(refusal | inconsistency) | command, rest⟩
    · rfl
    · rfl
    · simp only [(following_unseen b past).execute]
      rcases s.execute b command with ⟨error | ⟨⟩, s₁⟩ <;> rfl

theorem hear_following (call : Call) :
    (s.following past).hear b call = (s.hear b call).following past := by
  cases call with
  | dispatch action token arguments => simp only [hear, dispatch_following]
  | mismatch m => rfl

theorem endDocument_following : (s.following past).endDocument = s.endDocument.following past := by
  unfold endDocument
  rw [following_context]
  cases s.context.openBlocks <;> rfl

end

/-- The answer to a call: what becomes of the statement of a unit, and the unread arguments. -/
def answer (b : Builder σ) (s : Session σ) : Call → Option (Except Inconsistency Flow × Arguments)
  | .dispatch action token arguments =>
    let (result, rest, _) := s.dispatch b action token arguments
    some (result, rest)
  | .mismatch _ => none

/-- The answers to calls. -/
def answers (b : Builder σ) : Session σ → List Call →
    List (Option (Except Inconsistency Flow × Arguments))
  | _, [] => []
  | s, call :: rest => s.answer b call :: answers b (s.hear b call) rest

theorem answer_following (b : Builder σ) (s past : Session σ) (call : Call) :
    (s.following past).answer b call = s.answer b call := by
  cases call with
  | dispatch action token arguments => simp only [answer, dispatch_following]
  | mismatch m => rfl

/-- Calls are answered alike, and what they lead to is alike, whatever came before. -/
theorem run_following (b : Builder σ) (s past : Session σ) (cs : List Call) :
    (s.following past).answers b cs = s.answers b cs ∧
      (s.following past).hearAll b cs = (s.hearAll b cs).following past := by
  induction cs generalizing s with
  | nil => exact ⟨rfl, rfl⟩
  | cons call rest ih =>
    obtain ⟨hanswers, hheard⟩ := ih (s.hear b call)
    rw [← hear_following] at hanswers hheard
    refine ⟨?_, hheard⟩
    simp only [answers, answer_following, hanswers]

/-- No calls tell two sessions apart: they are answered alike, lead to the same context and
    builder, and ask and report the same, also if the document ends after them. -/
def Alike (b : Builder σ) (s s' : Session σ) : Prop :=
  ∀ cs, s.answers b cs = s'.answers b cs ∧
    ∃ since : Session σ, s.hearAll b cs = since.following s ∧ s'.hearAll b cs = since.following s' ∧
      (s.hearAll b cs).endDocument = since.endDocument.following s ∧
      (s'.hearAll b cs).endDocument = since.endDocument.following s'

/-- Sessions that differ in their journals alone are alike. -/
theorem alike_of_journal {errors : Nat} {journal : List Entry}
    (h : s' = { s with errors, journal }) : s.Alike b s' := by
  intro cs
  subst h
  -- both sessions are this one, which has no past, followed by their own
  let fresh : Session σ := { s with errors := 0, journal := [] }
  obtain ⟨hanswers, hheard⟩ := run_following b fresh s cs
  obtain ⟨hanswers', hheard'⟩ := run_following b fresh { s with errors, journal } cs
  have hfresh : fresh.following s = s := rfl
  have hfresh' : fresh.following { s with errors, journal } = { s with errors, journal } := rfl
  rw [hfresh] at hanswers hheard
  rw [hfresh'] at hanswers' hheard'
  refine ⟨hanswers.trans hanswers'.symm, fresh.hearAll b cs, hheard, hheard', ?_, ?_⟩
  · rw [hheard, endDocument_following]
  · rw [hheard', endDocument_following]

/-! ## Refused openers -/

/-- The unit is refused: where it stands, for the values of its arguments, or by the builder. -/
inductive Refuses (b : Builder σ) (s : Session σ) (action : Action) (token : Token)
    (arguments : Arguments) : Prop where
  | unread {refusal : Refusal} {rest : Arguments}
    (hread : (Command.read s.context token action).run arguments =
      (.error (.refused refusal), rest))
  | ungranted {command : Command} {rest : Arguments} {error : BuilderError} {s₁ : Session σ}
    (hread : (Command.read s.context token action).run arguments = (.ok command, rest))
    (hexecute : s.execute b command = (.error error, s₁))

/-- A refused opener leads to the context it stands in, with one block to skip. -/
theorem dispatch_refused {action : Action} {token : Token} {arguments : Arguments}
    (hskip : s.context.skipDepth = 0) (hopens : action.opensBlock = true)
    (h : s.Refuses b action token arguments) :
    ∃ flow rest s₁, s.dispatch b action token arguments = (.ok flow, rest, s₁) ∧
      s₁.context = { s.context with skipDepth := 1 } := by
  have hskip' : ¬ 0 < s.context.skipDepth := by omega
  have hrefuse : ∀ (s₁ : Session σ) (refusal : Refusal), s₁.context = s.context →
      (s₁.refuse action token refusal).context = { s.context with skipDepth := 1 } := by
    intro s₁ refusal hcontext
    simp [refuse, hopens, hcontext]
  cases h with
  | @unread refusal rest hread =>
    refine ⟨refusal.flow, rest, s.refuse action token refusal, ?_, hrefuse s refusal rfl⟩
    simp only [dispatch, if_neg hskip', hread]
  | @ungranted command rest error s₁ hread hexecute =>
    refine ⟨.continue, rest, s₁.refuse action token (.builder error), ?_,
      hrefuse s₁ _ (execute_error hexecute).context⟩
    simp only [dispatch, if_neg hskip', hread, hexecute]
    rfl

/-- The session after a refused block: that of its opener in the context before it, with the
    mismatches in the block reported. -/
theorem skipped_block {s₁ : Session σ} {content : List Call}
    (hskip : s.context.skipDepth = 0) (hcontext : s₁.context = { s.context with skipDepth := 1 })
    (h : Call.Balanced content) (token : Token) (arguments : Arguments) :
    s₁.hearAll b (content ++ [.dispatch .closeBrace token arguments]) = { s₁ with
      context := s.context
      errors := s₁.errors + (Call.mismatches content).length
      journal := ((Call.mismatches content).map s₁.mismatchEntry).reverse ++ s₁.journal } := by
  have hdepth : s₁.context.skipDepth = 1 := by rw [hcontext]
  have hrestored : { s₁.context with skipDepth := 0 } = s.context := by
    rw [hcontext, ← hskip]
  rw [hearAll_brace hdepth h, skipped, hdepth, Call.depth_brace h, hrestored,
    Call.mismatches_brace]

/-- A refused block is skipped as a unit.  In it every unit is answered `continue` and changes
    nothing but the number of blocks to skip.  Its brace leads back to the context before its
    opener, and of what stands in it only the mismatches are reported.  So whatever the content
    of the block, the document goes on alike. -/
theorem dispatch_refused_block (b : Builder σ) (s : Session σ) {action : Action} {token : Token}
    {arguments : Arguments} (hskip : s.context.skipDepth = 0) (hopens : action.opensBlock = true)
    (hrefused : s.Refuses b action token arguments) :
    ∃ flow rest s₁, s.dispatch b action token arguments = (.ok flow, rest, s₁) ∧
      s₁.context = { s.context with skipDepth := 1 } ∧
      (∀ before, Call.Inside 1 before → ∀ action' token' arguments',
        (s₁.hearAll b before).dispatch b action' token' arguments' =
          (.ok .continue, arguments', { s₁.hearAll b before with
            context := { s.context with skipDepth := action'.count (Call.depth before 1) } })) ∧
      ∀ content, Call.Balanced content → ∀ brace unread,
        let s₂ := s₁.hearAll b (content ++ [.dispatch .closeBrace brace unread])
        s₂ = { s₁ with
          context := s.context
          errors := s₁.errors + (Call.mismatches content).length
          journal := ((Call.mismatches content).map s₁.mismatchEntry).reverse ++ s₁.journal } ∧
        ∀ content', Call.Balanced content' → ∀ brace' unread',
          s₂.Alike b (s₁.hearAll b (content' ++ [.dispatch .closeBrace brace' unread'])) := by
  obtain ⟨flow, rest, s₁, hdispatch, hcontext⟩ := dispatch_refused hskip hopens hrefused
  have hdepth : s₁.context.skipDepth = 1 := by rw [hcontext]
  refine ⟨flow, rest, s₁, hdispatch, hcontext, ?_, ?_⟩
  · intro before hinside action' token' arguments'
    have hbefore : s₁.hearAll b before = s₁.skipped before := hearAll_skipping (hdepth ▸ hinside)
    have hopen : (s₁.skipped before).context.skipDepth = Call.depth before 1 := by
      rw [← hdepth]
      rfl
    have hpos : 0 < (s₁.skipped before).context.skipDepth := by
      rw [hopen]
      exact hinside before List.prefix_rfl
    have hkeep : ∀ n, { (s₁.skipped before).context with skipDepth := n } =
        { s.context with skipDepth := n } := by
      intro n
      show { s₁.context with skipDepth := n } = _
      rw [hcontext]
    rw [hbefore, dispatch_skipping hpos, hopen, hkeep]
  · -- whatever the content, the session after it differs in its journal alone
    intro content hcontent brace unread s₂
    have hs₂ : s₂ = _ := skipped_block hskip hcontext hcontent brace unread
    refine ⟨hs₂, ?_⟩
    intro content' hcontent' brace' unread'
    rw [skipped_block hskip hcontext hcontent', hs₂]
    exact alike_of_journal rfl

/-- A technique outside of a compositor, in which a target without a name and what is no
    statement stand. -/
theorem dispatch_refused_block_technique :
    let token := fun keyword : Keyword => Token.mk (.keyword keyword.id) 0 1
    let content : List Call :=
      [.dispatch .target (token .target) ⟨[], 1⟩, .mismatch ⟨12, 2, some "x"⟩,
       .dispatch .closeBrace (token .closeBrace) ⟨[], 3⟩]
    let s := (Session.new "General" (Registry.empty .standard)).beginDocument ⟨"d", ""⟩
    Call.Balanced content ∧ ∃ s₁,
      s.dispatch Registry.builder .technique (token .technique) ⟨[], 1⟩ =
        (.ok .skipStatement, ⟨[], 1⟩, s₁) ∧
      (s₁.hearAll Registry.builder
        (content ++ [.dispatch .closeBrace (token .closeBrace) ⟨[], 4⟩])).context = s.context := by
  intro token content s
  have hcontent : Call.Balanced content :=
    ⟨.cons (by decide) (.cons (by decide) (.cons (by decide) (Call.inside_nil (by decide)))), rfl⟩
  have hrefused : s.Refuses Registry.builder .technique (token .technique) ⟨[], 1⟩ :=
    .unread rfl
  obtain ⟨flow, rest, s₁, hdispatch, _, _, hafter⟩ :=
    dispatch_refused_block Registry.builder s rfl rfl hrefused
  have hanswer : s.dispatch Registry.builder .technique (token .technique) ⟨[], 1⟩ =
      (.ok .skipStatement, ⟨[], 1⟩, _) := rfl
  refine ⟨hcontent, s₁, ?_, ?_⟩
  · rw [hanswer] at hdispatch ⊢
    cases hdispatch
    rfl
  · rw [(hafter content hcontent _ _).1]

end Session
end Compositing.Script
