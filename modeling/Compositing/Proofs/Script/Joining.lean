import Compositing.Proofs.Recognition.Joining
import Compositing.Proofs.Script.Lasting
import Compositing.Proofs.Script.Moving
import Compositing.Proofs.Script.Outcome

/-! # Two documents, one after the other

    A document that is compiled without a diagnostic leaves nothing behind but
    what it built: every block is closed and the context is that of the
    beginning.  Another document that is put behind it, on a new line, is
    compiled as if the two were compiled one after the other, with its lines
    further down.

    There is one exception.  The second document must not change how the first
    is cut into statements, and it can where a keyword dangles that a shorter
    one is tried for: `target_output//foo {` names a target as long as the
    comment goes to the end of the text, and a brace behind that makes it an
    output target. -/

namespace Compositing.Script

variable {caseSensitive : Bool}

/-! ## The statements of the first document -/

/-- A statement lasts where no keyword that dangles is completed. -/
theorem lastsBetween_of_dangles {before text more : List Char} (hplain : Text.IsPlain text)
    (hdangles : ∀ k : Keyword, k.Dangles caseSensitive text →
      ¬ k.CompletedBy (Position.start more).skipTrivia.rest) :
    (language caseSensitive).LastsBetween more before text := by
  intro hmatched
  rw [← Language.recognizer_between] at hmatched ⊢
  rw [← Language.recognizer_between]
  obtain ⟨outcome, hpeg, hreports⟩ := Recognition.reports_recognize grammar caseSensitive
    Production.statement.element (.between before text) (Text.byteLength before)
  obtain ⟨outcome', hpeg', hreports'⟩ := Recognition.reports_recognize grammar caseSensitive
    Production.statement.element (.between before (text ++ '\n' :: more)) (Text.byteLength before)
  obtain ⟨⟨q, tokens⟩, rfl⟩ := Option.isSome_iff_exists.mp (hreports.matched.symm.trans hmatched)
  have hplace : (Position.between before text).skipTrivia = .between before text :=
    Position.skipTrivia_plain hplain
  obtain rfl := (lasts_statement (by rwa [hplace]) hpeg).deterministic hpeg'
  refine ⟨hreports'.matched, hreports'.position.trans ?_, hreports'.tokens.trans ?_⟩
  · exact congrArg (Position.continued more) hreports.position.symm
  · exact hreports.tokens.symm

namespace Session
variable {σ : Type} {b : Builder σ} {s s' : Session σ}

/-! ## The end of the first document -/

theorem runEvents_keeps (b : Builder σ) (action? : Nat → Option Action) (events : List Event)
    (summary : Summary) (s : Session σ) : Keeps s ((handler b).runEvents action? events summary s).2 :=
  Handler.keeps_runEvents (fun _ _ h => h.trans (dispatch_keeps _ _ _ _))
    (fun _ _ h => h.trans ⟨rfl, rfl, rfl⟩) action? events summary ⟨rfl, rfl, rfl⟩

/-- Events after which there is no diagnostic are statements. -/
theorem statements_of_no_diagnostics {text : List Char} {events : List Event}
    (hmem : ∀ event ∈ events, event ∈ (language caseSensitive).events text)
    {summary summary' : Summary}
    (h : (handler b).runEvents (language caseSensitive).lexicon.action? events summary s =
      (.ok summary', s')) (hdiagnostics : s'.diagnostics = []) :
    s.diagnostics = [] ∧ ∀ event ∈ events, ∃ statement, event = .statement statement := by
  induction events generalizing s summary with
  | nil =>
    cases h
    exact ⟨hdiagnostics, nofun⟩
  | cons event events ih =>
    rw [List.forall_mem_cons] at hmem ⊢
    rw [show event :: events = [event] ++ events from rfl, runEvents_append] at h
    rcases hevent : (handler b).runEvents (language caseSensitive).lexicon.action? [event]
        summary s with ⟨error | summary₁, s₁⟩
    · simp [hevent] at h
    · simp only [hevent] at h
      -- the events behind this one report nothing, and neither does this one
      obtain ⟨hnone, hstatements⟩ := ih hmem.2 h
      have htold := runEvent_told hmem.1 hevent
      rw [hnone, eq_comm, List.append_eq_nil_iff] at htold
      refine ⟨htold.1, ?_, hstatements⟩
      cases event with
      | statement statement => exact ⟨statement, rfl⟩
      | mismatch m => cases htold.2

/-- A context in which no block is open is that of the beginning of a document. -/
theorem eq_initial {c : Context} (hnested : c.Nested) (hclosed : c.openBlocks = 0) :
    c = .initial c.group := by
  obtain ⟨hcompositor, htechnique, htarget, hpass, houtput⟩ := hnested
  obtain ⟨group, innermost, compositor, technique, target, pass, outputTarget, skipDepth⟩ := c
  cases innermost with
  | none => simp_all [Context.initial, Context.openBlocks, Section.depth]
  | _ => simp [Context.openBlocks, Section.depth] at hclosed

/-- Where a document ends without a diagnostic there was none before, and no block is open. -/
theorem closed_of_endDocument (h : s.endDocument.diagnostics = []) :
    s.diagnostics = [] ∧ s.context.openBlocks = 0 ∧ s.endDocument = s := by
  rw [endDocument_diagnostics, List.append_eq_nil_iff] at h
  have hclosed : s.context.openBlocks = 0 := by
    apply Classical.byContradiction
    intro hopen
    rw [if_neg hopen] at h
    cases h.2
  refine ⟨h.1, hclosed, ?_⟩
  unfold endDocument
  rw [hclosed]
  rfl

/-- A document that is compiled without a diagnostic consists of statements and closes all its
    blocks. -/
theorem clean_of_compile {group name text : String} {builder : σ} {summary : Summary}
    (hresult : ((Compiler.standard caseSensitive group).compile b ⟨name, text⟩ builder).1 =
      .ok summary)
    (hdiagnostics :
      ((Compiler.standard caseSensitive group).compile b ⟨name, text⟩ builder).2.diagnostics =
        []) :
    ∃ counted s, (handler b).runEvents (language caseSensitive).lexicon.action?
        ((language caseSensitive).events text.toList) ⟨0, 0, 0, 0⟩
        ((new group builder).beginDocument ⟨name, text⟩) = (.ok counted, s) ∧
      summary = { counted with errors := s.errors } ∧
      ((Compiler.standard caseSensitive group).compile b ⟨name, text⟩ builder).2 = s ∧
      s.context = .initial group ∧
      ∀ event ∈ (language caseSensitive).events text.toList,
        ∃ statement, event = .statement statement := by
  rcases hrun : (handler b).runEvents (language caseSensitive).lexicon.action?
      ((language caseSensitive).events text.toList) ⟨0, 0, 0, 0⟩
      ((new group builder).beginDocument ⟨name, text⟩) with ⟨error | counted, s⟩
  · have hcompile : (Compiler.standard caseSensitive group).compile b ⟨name, text⟩ builder =
        (.error error, s) := compile_of_error hrun
    rw [hcompile] at hresult
    cases hresult
  · have hcompile : (Compiler.standard caseSensitive group).compile b ⟨name, text⟩ builder =
        (.ok { counted with errors := s.endDocument.errors }, s.endDocument) := compile_of_ok hrun
    rw [hcompile] at hresult hdiagnostics
    obtain ⟨hnone, hclosed, hend⟩ := closed_of_endDocument hdiagnostics
    have hmem : ∀ event ∈ (language caseSensitive).events text.toList,
        event ∈ (language caseSensitive).events text.toList := fun _ h => h
    have hbegun : ((new group builder).beginDocument ⟨name, text⟩).context.Nested :=
      nested_initial group
    -- with no block open a nested context is that of the beginning, but for the group, which a
    -- document keeps
    have hnested := nested_runEvents hmem hbegun hrun
    have hkeeps := runEvents_keeps b (language caseSensitive).lexicon.action?
      ((language caseSensitive).events text.toList) ⟨0, 0, 0, 0⟩
      ((new group builder).beginDocument ⟨name, text⟩)
    rw [hrun] at hkeeps
    refine ⟨counted, s, rfl, ?_, ?_, ?_, ?_⟩
    · rw [← Except.ok.inj hresult, hend]
    · rw [hcompile, hend]
    · rw [eq_initial hnested hclosed, hkeeps.group]
      rfl
    · exact (statements_of_no_diagnostics hmem hrun hnone).2

/-! ## The second document -/

/-- The last line of two texts with a line end between them. -/
theorem lastLineOf_joined (first second : List Char) :
    (second = [] ∧ lastLineOf (first ++ '\n' :: second) = Text.newlines first + 1) ∨
      lastLineOf (first ++ '\n' :: second) = lastLineOf second + (Text.newlines first + 1) := by
  have hnewlines : Text.newlines (first ++ '\n' :: second) =
      Text.newlines second + (Text.newlines first + 1) := by
    rw [Text.newlines_append]
    simp [Text.newlines]
    omega
  unfold lastLineOf
  rw [hnewlines]
  cases second with
  | nil => exact .inl ⟨rfl, by simp⟩
  | cons c second =>
    refine .inr ?_
    have hlast : (first ++ '\n' :: c :: second).getLast? = (c :: second).getLast? := by
      simp [List.getLast?_append, List.getLast?_cons]
    simp only [hlast]
    split <;> omega

theorem lastLineOf_le (text : List Char) : lastLineOf text ≤ Text.newlines text + 1 := by
  unfold lastLineOf
  simp only
  split <;> omega

/-- Two sessions at the beginning of a document of which one begins with the other. -/
theorem beginDocument_moved (group name first whole : String) (builder : σ)
    (h : lastLineOf first.toList ≤ lastLineOf whole.toList) :
    (new group builder).beginDocument ⟨name, whole⟩ =
      (((new group builder).beginDocument ⟨name, first⟩).moved 0
        (lastLineOf whole.toList - lastLineOf first.toList)).following (new group builder) := by
  have hlast : lastLineOf first.toList + (lastLineOf whole.toList - lastLineOf first.toList) =
      lastLineOf whole.toList := Nat.add_sub_cancel' h
  simp [beginDocument, moved, following, new, hlast]

/-- Where the context is that of the beginning, a session goes on like one that begins. -/
theorem beginDocument_following {group name text : String} {t : Session σ} {last : Nat}
    (lines : Nat) (hcontext : t.context = .initial group) (hdocument : t.document = name)
    (hlast : t.lastLine = lastLineOf text.toList + last) :
    t = (((new group t.builder).beginDocument ⟨name, text⟩).moved lines last).following t := by
  obtain ⟨context, document, lastLine, errors, builder, journal⟩ := t
  obtain rfl : context = _ := hcontext
  obtain rfl : document = _ := hdocument
  obtain rfl : lastLine = _ := hlast
  rfl

/-- The events of the two documents. -/
theorem events_documents {first second : String}
    (hstatements : ∀ event ∈ (language caseSensitive).events first.toList,
      ∃ statement, event = .statement statement)
    (hdangles : ∀ statement, .statement statement ∈ (language caseSensitive).events first.toList →
      ∀ k : Keyword,
        k.Dangles caseSensitive
          ((Position.start first.toList).forwardTo statement.offset).rest →
        ¬ k.CompletedBy (Position.start second.toList).skipTrivia.rest) :
    (language caseSensitive).events (first ++ "\n" ++ second).toList =
      (language caseSensitive).events first.toList ++
        ((language caseSensitive).events second.toList).map
          (Event.moved (Text.byteLength first.toList + 1) (Text.newlines first.toList + 1)) := by
  have htext : (first ++ "\n" ++ second).toList = first.toList ++ '\n' :: second.toList := by
    simp
  rw [htext]
  refine Language.events_joined _ _ hstatements ?_
  intro statement before after hmem hsplit hoffset hplain
  refine lastsBetween_of_dangles hplain fun k hk => ?_
  have hplace : ((Position.start first.toList).forwardTo statement.offset).rest = after := by
    rw [hsplit, ← hoffset]
    exact congrArg Position.rest (Position.start_advanceBytes before after)
  rw [← hplace] at hk
  exact hdangles statement hmem k hk

/-- Carrying out the first document in front of more leads to the session it leads to alone, but
    for the last line. -/
theorem runEvents_first {group name first whole : String} {builder : σ} {events : List Event}
    {counted : Summary}
    (hrun : (handler b).runEvents (language caseSensitive).lexicon.action? events ⟨0, 0, 0, 0⟩
      ((new group builder).beginDocument ⟨name, first⟩) = (.ok counted, s))
    (hlast : lastLineOf first.toList ≤ lastLineOf whole.toList) :
    ∃ t, (handler b).runEvents (language caseSensitive).lexicon.action? events ⟨0, 0, 0, 0⟩
        ((new group builder).beginDocument ⟨name, whole⟩) = (.ok counted, t) ∧
      t.context = s.context ∧ t.document = name ∧ t.lastLine = lastLineOf whole.toList ∧
      t.errors = s.errors ∧ t.diagnostics = s.diagnostics ∧ t.builder = s.builder := by
  have hkeeps := runEvents_keeps b (language caseSensitive).lexicon.action? events ⟨0, 0, 0, 0⟩
    ((new group builder).beginDocument ⟨name, whole⟩)
  -- nothing is moved but the last line, which no event sees
  have hends := (follows_moved b 0 0 (lastLineOf whole.toList - lastLineOf first.toList)
    (new group builder)).runEvents (language caseSensitive).lexicon.action? ⟨0, 0, 0, 0⟩ events
    ⟨0, 0, 0, 0⟩ (beginDocument_moved group name first whole builder hlast)
  rw [hrun, Event.map_moved_zero, Summary.zero_add] at hends
  generalize (handler b).runEvents (language caseSensitive).lexicon.action? events ⟨0, 0, 0, 0⟩
    ((new group builder).beginDocument ⟨name, whole⟩) = there at hends hkeeps ⊢
  obtain ⟨result, t⟩ := there
  obtain ⟨rfl, rfl⟩ : result = _ ∧ t = _ := ⟨hends.result, hends.related⟩
  refine ⟨_, congrArg (Except.ok · , _) (Summary.zero_add counted), rfl, hkeeps.document,
    hkeeps.lastLine, Nat.zero_add s.errors, ?_, rfl⟩
  rw [diagnostics_following, diagnostics_moved, Diagnostic.map_moved_zero]
  rfl

/-! ## Both documents -/

/-- Behind a document that leaves the context of the beginning, another is carried out as it is
    carried out alone, further down. -/
theorem runEvents_joined {group name first second : String} {builder : σ} {counted : Summary}
    (hfirst : (handler b).runEvents (language caseSensitive).lexicon.action?
      ((language caseSensitive).events first.toList) ⟨0, 0, 0, 0⟩
      ((new group builder).beginDocument ⟨name, first⟩) = (.ok counted, s))
    (hcontext : s.context = .initial group)
    (hevents : (language caseSensitive).events (first ++ "\n" ++ second).toList =
      (language caseSensitive).events first.toList ++
        ((language caseSensitive).events second.toList).map
          (Event.moved (Text.byteLength first.toList + 1) (Text.newlines first.toList + 1))) :
    ∃ (t : Session σ) (last : Nat), t.errors = s.errors ∧ t.diagnostics = s.diagnostics ∧
      (second.toList = [] ∨ last = Text.newlines first.toList + 1) ∧
      Handler.Ends (Text.byteLength first.toList + 1) (Text.newlines first.toList + 1)
        (Inconsistency.moved (Text.newlines first.toList + 1))
        (fun alone behind => behind =
          (alone.moved (Text.newlines first.toList + 1) last).following t)
        counted
        ((handler b).runEvents (language caseSensitive).lexicon.action?
          ((language caseSensitive).events second.toList) ⟨0, 0, 0, 0⟩
          ((new group s.builder).beginDocument ⟨name, second⟩))
        ((handler b).runEvents (language caseSensitive).lexicon.action?
          ((language caseSensitive).events (first ++ "\n" ++ second).toList) ⟨0, 0, 0, 0⟩
          ((new group builder).beginDocument ⟨name, first ++ "\n" ++ second⟩)) := by
  have htext : (first ++ "\n" ++ second).toList = first.toList ++ '\n' :: second.toList := by
    simp
  have hjoined := lastLineOf_joined first.toList second.toList
  rw [← htext] at hjoined
  -- the line that counts as the last is as far down as the lines are, but for an empty text
  obtain ⟨last, hlast, hlines⟩ : ∃ last,
      lastLineOf (first ++ "\n" ++ second).toList = lastLineOf second.toList + last ∧
        (second.toList = [] ∨ last = Text.newlines first.toList + 1) := by
    rcases hjoined with ⟨hempty, hline⟩ | hline
    · refine ⟨Text.newlines first.toList, ?_, .inl hempty⟩
      rw [hline, hempty]
      exact Nat.add_comm _ _
    · exact ⟨_, hline, .inr rfl⟩
  have hbelow : lastLineOf first.toList ≤ lastLineOf (first ++ "\n" ++ second).toList := by
    have := lastLineOf_le first.toList
    omega
  obtain ⟨t, hrun, hc, hname, hline, herrors, hdiagnostics, hbuilder⟩ :=
    runEvents_first hfirst hbelow
  refine ⟨t, last, herrors, hdiagnostics, hlines, ?_⟩
  have hbegun := beginDocument_following (Text.newlines first.toList + 1) (hc.trans hcontext)
    hname (hline.trans hlast)
  rw [hevents, runEvents_append, hrun, ← hbuilder]
  exact (follows_moved b _ _ last t).runEvents _ counted _ ⟨0, 0, 0, 0⟩ hbegun

/-- A document that is compiled without a diagnostic and another, on a new line, are compiled as
    if the one were compiled after the other, with the lines of the other further down, unless the
    other completes a keyword that dangles in the first. -/
theorem compile_joined {group name first second : String} {builder : σ} {summary : Summary}
    (hresult : ((Compiler.standard caseSensitive group).compile b ⟨name, first⟩ builder).1 =
      .ok summary)
    (hdiagnostics :
      ((Compiler.standard caseSensitive group).compile b ⟨name, first⟩ builder).2.diagnostics =
        [])
    (hdangles : ∀ statement, .statement statement ∈ (language caseSensitive).events first.toList →
      ∀ k : Keyword,
        k.Dangles caseSensitive
          ((Position.start first.toList).forwardTo statement.offset).rest →
        ¬ k.CompletedBy (Position.start second.toList).skipTrivia.rest) :
    let compiler := Compiler.standard caseSensitive group
    let lines := Text.newlines first.toList + 1
    let own := compiler.compile b ⟨name, second⟩ (compiler.compile b ⟨name, first⟩ builder).2.builder
    let whole := compiler.compile b ⟨name, first ++ "\n" ++ second⟩ builder
    whole.1 = (own.1.map (summary + ·)).mapError
        (RunError.moved (Text.byteLength first.toList + 1) lines (Inconsistency.moved lines)) ∧
      whole.2.diagnostics = own.2.diagnostics.map (Diagnostic.moved lines) ∧
      whole.2.builder = own.2.builder := by
  intro compiler lines own whole
  obtain ⟨counted, s, hfirst, rfl, hsession, hcontext, hstatements⟩ :=
    clean_of_compile hresult hdiagnostics
  rw [hsession] at hdiagnostics
  have hown : own = compiler.compile b ⟨name, second⟩ s.builder :=
    congrArg (fun t : Session σ => compiler.compile b ⟨name, second⟩ t.builder) hsession
  obtain ⟨t, last, herrors, hnone, hlast, hends⟩ :=
    runEvents_joined hfirst hcontext (events_documents hstatements hdangles)
  -- the first document reports nothing, so all that is reported is the second one's
  rw [hdiagnostics] at hnone
  have hreported : ∀ alone : Session σ, ((alone.moved lines last).following t).diagnostics =
      alone.diagnostics.map (Diagnostic.moved lines) := by
    intro alone
    rw [diagnostics_following, diagnostics_moved, hnone, List.nil_append]
  rcases hsecond : (handler b).runEvents (language caseSensitive).lexicon.action?
      ((language caseSensitive).events second.toList) ⟨0, 0, 0, 0⟩
      ((new group s.builder).beginDocument ⟨name, second⟩) with ⟨error | counted', s'⟩
  · rw [hsecond] at hends
    have hown' : own = (.error error, s') := hown.trans (compile_of_error hsecond)
    have hwhole : whole = _ := compile_of_error (Prod.ext hends.result hends.related)
    rw [hown', hwhole]
    exact ⟨rfl, hreported s', rfl⟩
  · rw [hsecond] at hends
    have hown' : own = (.ok { counted' with errors := s'.endDocument.errors }, s'.endDocument) :=
      hown.trans (compile_of_ok hsecond)
    -- an empty document has no end that is reported
    have hend : ((s'.moved lines last).following t).endDocument =
        (s'.endDocument.moved lines last).following t := by
      rw [endDocument_following, endDocument_moved]
      refine hlast.symm.imp id fun hempty => ?_
      rw [hempty] at hsecond
      cases hsecond
      rfl
    have hwhole : whole = (.ok { counted + counted' with
          errors := ((s'.endDocument.moved lines last).following t).errors },
        (s'.endDocument.moved lines last).following t) := by
      rw [← hend]
      exact compile_of_ok (Prod.ext hends.result hends.related)
    rw [hown', hwhole]
    refine ⟨?_, hreported s'.endDocument, rfl⟩
    show Except.ok (Summary.mk _ _ _ (t.errors + s'.endDocument.errors)) = _
    rw [herrors]
    rfl

/-- A compositor whose target takes the slashes of a comment for its label. -/
def danglingTarget : String :=
  "compositor X \x7b technique \x7b target_output//foo \x7b \x7d \x7d \x7d"

/-- The target stays a target in front of a brace too many. -/
theorem compile_joined_brace :
    let second := "\x7d\ncompositor Y \x7b"
    let whole := (Compiler.standard true "General").compile Registry.builder
      ⟨"joined.compositor", danglingTarget ++ "\n" ++ second⟩ (Registry.empty .standard)
    whole.1 = .ok ⟨8, 8, 0, 2⟩ ∧ whole.2.diagnostics.map (·.line) = [2, 3] := by
  intro second whole
  let alone := (Compiler.standard true "General").compile Registry.builder
    ⟨"joined.compositor", danglingTarget⟩ (Registry.empty .standard)
  let own := (Compiler.standard true "General").compile Registry.builder
    ⟨"joined.compositor", second⟩ alone.2.builder
  have hruns : alone.1.toOption = some ⟨6, 6, 0, 0⟩ ∧ alone.2.diagnostics = [] ∧
      own.1.toOption = some ⟨2, 2, 0, 2⟩ ∧
      (own.2.diagnostics.map (Diagnostic.moved (Text.newlines danglingTarget.toList + 1))).map
        (·.line) = [2, 3] := by
    decide +kernel
  obtain ⟨halone, hclean, hown, hlines⟩ := hruns
  -- neither a brace that opens a block nor a label is at the front of the second document
  have hfront : (Position.start second.toList).skipTrivia.rest.head? ≠ some '{' ∧
      ¬ (Scan.label (Position.start second.toList).skipTrivia.rest).isSome := by
    decide +kernel
  have hcompleted : ∀ k : Keyword,
      ¬ k.CompletedBy (Position.start second.toList).skipTrivia.rest := by
    intro k h
    unfold Keyword.CompletedBy at h
    split at h
    · exact hfront.1 h
    · exact hfront.2 h
    · exact h
  obtain ⟨hwhole, htold, _⟩ := @compile_joined _ _ _ _ _ _ second _ _ (ok_of_toOption halone)
    hclean fun _ _ k _ => hcompleted k
  rw [hwhole, htold]
  refine ⟨?_, hlines⟩
  rw [ok_of_toOption hown]
  rfl

/-- In front of a brace that opens a block the target becomes an output target. -/
theorem compile_not_joined_dangling :
    let compiler := Compiler.standard true "General"
    let second := "\x7b"
    let alone := compiler.compile Registry.builder ⟨"t.compositor", danglingTarget⟩
      (Registry.empty .standard)
    let own := compiler.compile Registry.builder ⟨"t.compositor", second⟩ alone.2.builder
    let whole := compiler.compile Registry.builder
      ⟨"t.compositor", danglingTarget ++ "\n" ++ second⟩ (Registry.empty .standard)
    alone.1 = .ok ⟨6, 6, 0, 0⟩ ∧ alone.2.diagnostics = [] ∧ own.1 = .ok ⟨0, 0, 1, 1⟩ ∧
      whole.1 = .ok ⟨3, 3, 0, 1⟩ ∧
      whole.2.diagnostics ≠
        own.2.diagnostics.map (Diagnostic.moved (Text.newlines danglingTarget.toList + 1)) ∧
      whole.2.builder ≠ own.2.builder := by
  intro compiler second alone own whole
  have hruns : alone.1.toOption = some ⟨6, 6, 0, 0⟩ ∧ alone.2.diagnostics = [] ∧
      own.1.toOption = some ⟨0, 0, 1, 1⟩ ∧ whole.1.toOption = some ⟨3, 3, 0, 1⟩ ∧
      whole.2.diagnostics ≠
        own.2.diagnostics.map (Diagnostic.moved (Text.newlines danglingTarget.toList + 1)) ∧
      whole.2.builder.compositors ≠ own.2.builder.compositors := by
    decide +kernel
  obtain ⟨halone, hclean, hown, hwhole, htold, hbuilt⟩ := hruns
  exact ⟨ok_of_toOption halone, hclean, ok_of_toOption hown, ok_of_toOption hwhole, htold,
    fun h => hbuilt (congrArg Registry.compositors h)⟩

end Session
end Compositing.Script
