import Compositing.Proofs.Language.Running
import Compositing.Proofs.Script.Path
import Compositing.Proofs.Script.Renaming
import Compositing.Proofs.Script.Requests

/-! # Documents are isolated

    A document is compiled over a registry as it is over an empty one in which
    some names are taken: the handles of its context are handles for objects
    it has created, so it can neither see nor change what was there before.
    Two registries with the same defaults and the same names thus give the
    same result and the same diagnostics, and grow by the same compositors.

    `On` relates the two runs.  The run over the registry keeps a path, by
    which each handle that is asked for is known, on top as well. -/

namespace Compositing.Script

/-! ## What a command is about -/

/-- The object a command is about. -/
def Command.object? : Command → Option Handle
  | .close | .openCompositor _ => none
  | .openTechnique parent | .openTarget parent _ | .openOutputTarget parent
  | .openPass parent _ => some parent
  | .set object _ => some object

/-- It is the innermost block. -/
theorem object_of_admits {context : Context} {action : Action} {command : Command}
    (h : Admits context action command) {handle : Handle}
    (hobject : command.object? = some handle) :
    context.handle? context.innermost = some handle := by
  cases action with
  | closeBrace =>
    obtain ⟨_, rfl⟩ := h
    cases hobject
  | compositor =>
    obtain ⟨_, name, rfl⟩ := h
    cases hobject
  | technique | targetOutput =>
    obtain ⟨hin, parent, hparent, rfl⟩ := h
    cases hobject
    rw [hin, hparent]
  | target | pass =>
    obtain ⟨hin, parent, _, hparent, rfl⟩ := h
    cases hobject
    rw [hin, hparent]
  | texture =>
    obtain ⟨hin, technique, _, htechnique, rfl⟩ := h
    cases hobject
    rw [hin, htechnique]
  | _ =>
    obtain ⟨hin, target, _, htarget, _, rfl⟩ | ⟨hin, pass, _, hpass, rfl⟩ := h
    · cases hobject
      rw [hin, htarget]
    · cases hobject
      rw [hin, hpass]

namespace Session

/-- The innermost block of a path has a place. -/
theorem exists_place {t : Session Registry} (h : t.Placed) {handle : Handle}
    (hhandle : t.context.handle? t.context.innermost = some handle) :
    ∃ place, t.builder.place? handle = some place := by
  cases hin : t.context.innermost with
  | none =>
    rw [hin] at hhandle
    cases hhandle
  | compositor =>
    rw [hin] at hhandle
    obtain ⟨_, _, hdenotes, _⟩ := h.follows.compositor (by rw [hin]; decide)
    exact ⟨_, place?_of_denotes hdenotes hhandle⟩
  | technique =>
    rw [hin] at hhandle
    obtain ⟨_, _, _, hdenotes⟩ := h.follows.technique (by rw [hin]; decide)
    exact ⟨_, place?_of_denotes hdenotes hhandle⟩
  | target =>
    rw [hin] at hhandle
    obtain ⟨_, _, _, _, hdenotes, _⟩ := h.follows.target (by rw [hin]; decide)
    exact ⟨_, place?_of_denotes hdenotes hhandle⟩
  | pass =>
    rw [hin] at hhandle
    obtain ⟨_, _, _, _, _, hdenotes⟩ := h.follows.pass (by rw [hin]; decide)
    exact ⟨_, place?_of_denotes hdenotes hhandle⟩

/-! ## Sessions on top of a registry -/

/-- The first session builds a registry of its own, the second one the same on top of `base`; an
    author sees no difference. -/
structure On (base : Registry) (s t : Session Registry) : Prop where
  context : t.context = s.context.raise base.places.length
  document : t.document = s.document
  lastLine : t.lastLine = s.lastLine
  errors : t.errors = s.errors
  diagnostics : t.diagnostics = s.diagnostics
  builder : t.builder = s.builder.on base

/-- The answers to a request for a handle, the second on top of `base`. -/
structure AnswersOn (base : Registry) (here there : Except BuilderError Handle × Session Registry) :
    Prop where
  answer : there.1 = here.1.map (Handle.raise base.places.length)
  on : On base here.2 there.2

section
variable {base : Registry} {s s' t t' : Session Registry}

/-- Requests leave sessions alike if they leave the builders so. -/
theorem On.requested (h : On base s t) (hs : Requested s s') (ht : Requested t t')
    (hbuilder : t'.builder = s'.builder.on base) : On base s' t' where
  context := by rw [ht.context, h.context, hs.context]
  document := by rw [ht.document, h.document, hs.document]
  lastLine := by rw [ht.lastLine, h.lastLine, hs.lastLine]
  errors := by rw [ht.errors, h.errors, hs.errors]
  diagnostics := by rw [ht.diagnostics, h.diagnostics, hs.diagnostics]
  builder := hbuilder

/-- A report is the same on top. -/
theorem On.report (h : On base s t) (kind : DiagnosticKind) (line : Nat) (message : String) :
    On base (s.report kind line message) (t.report kind line message) where
  context := h.context
  document := h.document
  lastLine := h.lastLine
  errors := congrArg (· + 1) h.errors
  diagnostics := by
    rw [report_diagnostics, report_diagnostics, h.diagnostics]
    simp only [diagnostic, h.document, h.context, Context.compositorName_raise]
  builder := h.builder

/-- How many blocks are skipped does not depend on what is below. -/
theorem On.skipping (h : On base s t) (skipDepth : Nat) :
    On base { s with context := { s.context with skipDepth } }
      { t with context := { t.context with skipDepth } } where
  context := by
    simp only [h.context]
    rfl
  document := h.document
  lastLine := h.lastLine
  errors := h.errors
  diagnostics := h.diagnostics
  builder := h.builder

theorem On.skip (h : On base s t) (action : Action) : On base (s.skip action) (t.skip action) := by
  have hdepth : t.context.skipDepth = s.context.skipDepth := by
    rw [h.context]
    rfl
  unfold Session.skip
  rw [hdepth]
  exact h.skipping _

theorem On.refuse (h : On base s t) (action : Action) (token : Token) (refusal : Refusal) :
    On base (s.refuse action token refusal) (t.refuse action token refusal) := by
  have hdepth : t.context.skipDepth = s.context.skipDepth := by
    rw [h.context]
    rfl
  unfold Session.refuse
  rw [hdepth]
  exact (h.skipping _).report refusal.kind token.line refusal.message

theorem On.endDocument (h : On base s t) : On base s.endDocument t.endDocument := by
  have hblocks : t.context.openBlocks = s.context.openBlocks := by
    rw [h.context]
    rfl
  unfold Session.endDocument
  rw [hblocks, h.lastLine]
  split
  · exact h
  · exact h.report _ _ _

/-! ## Requests -/

theorem On.createCompositor (h : On base s t) (name : String) :
    AnswersOn base (s.createCompositor (Registry.builderAmong base.names) name)
      (t.createCompositor Registry.builder name) := by
  have hcreate : t.builder.createCompositor name t.context.group =
      base.answerOn (s.builder.createAmong base.names name s.context.group) := by
    rw [h.builder, h.context]
    exact base.createCompositor_on s.builder name s.context.group
  refine ⟨congrArg Prod.fst hcreate, ?_⟩
  exact h.requested (requested_createCompositor _ s name) (requested_createCompositor _ t name)
    (congrArg Prod.snd hcreate)

theorem On.createChild (h : On base s t) {parent : Handle}
    (hparent : (s.builder.place? parent).isSome) (kind : ChildKind) :
    AnswersOn base (s.createChild (Registry.builderAmong base.names) parent kind)
      (t.createChild Registry.builder (parent.raise base.places.length) kind) := by
  have hcreate : t.builder.createChild (parent.raise base.places.length) kind =
      base.answerOn (s.builder.createChild parent kind) := by
    rw [h.builder]
    exact base.createChild_on s.builder hparent kind
  refine ⟨congrArg Prod.fst hcreate, ?_⟩
  exact h.requested (requested_createChild _ s parent kind) (requested_createChild _ t _ kind)
    (congrArg Prod.snd hcreate)

theorem On.setAttribute (h : On base s t) {object : Handle}
    (hobject : (s.builder.place? object).isSome) (attr : Attribute) :
    (t.setAttribute Registry.builder (object.raise base.places.length) attr).1 =
        (s.setAttribute (Registry.builderAmong base.names) object attr).1 ∧
      On base (s.setAttribute (Registry.builderAmong base.names) object attr).2
        (t.setAttribute Registry.builder (object.raise base.places.length) attr).2 := by
  have hset : t.builder.setAttribute (object.raise base.places.length) attr =
      ((s.builder.setAttribute object attr).1, (s.builder.setAttribute object attr).2.on base) := by
    rw [h.builder]
    exact base.setAttribute_on s.builder hobject attr
  obtain ⟨hanswer, hbuilder⟩ := Prod.ext_iff.mp hset
  exact ⟨hanswer, h.requested (requested_setAttribute _ s object attr)
    (requested_setAttribute _ t _ attr) hbuilder⟩

theorem On.createChildWith (h : On base s t) {parent : Handle}
    (hparent : (s.builder.place? parent).isSome) (kind : ChildKind) (attr : Attribute) :
    AnswersOn base (s.createChildWith (Registry.builderAmong base.names) parent kind attr)
      (t.createChildWith Registry.builder (parent.raise base.places.length) kind attr) := by
  have hcreates := h.createChild hparent kind
  -- the handle of the new child is known, so its attribute is set alike
  have hknown : ∀ {handle s₁}, s.createChild (Registry.builderAmong base.names) parent kind =
      (.ok handle, s₁) → (s₁.builder.place? handle).isSome := by
    intro handle s₁ hcreate
    obtain ⟨hanswer, hsession⟩ := Prod.mk.inj hcreate
    rw [← hsession]
    exact Registry.place?_createChild (Prod.ext hanswer rfl)
  unfold Session.createChildWith
  generalize s.createChild (Registry.builderAmong base.names) parent kind = here at hcreates hknown ⊢
  generalize t.createChild Registry.builder (parent.raise base.places.length) kind = there
    at hcreates ⊢
  obtain ⟨result, s₁⟩ := here
  obtain ⟨result', t₁⟩ := there
  obtain ⟨rfl, hon⟩ : result' = result.map (Handle.raise base.places.length) ∧ On base s₁ t₁ :=
    ⟨hcreates.answer, hcreates.on⟩
  cases result with
  | error error => exact ⟨rfl, hon⟩
  | ok handle =>
    have hsets := hon.setAttribute (hknown rfl) attr
    simp only [Except.map]
    generalize s₁.setAttribute (Registry.builderAmong base.names) handle attr = here at hsets ⊢
    generalize t₁.setAttribute Registry.builder (handle.raise base.places.length) attr = there
      at hsets ⊢
    obtain ⟨result, s₂⟩ := here
    obtain ⟨result', t₂⟩ := there
    obtain ⟨rfl, hon⟩ : result' = result ∧ On base s₂ t₂ := hsets
    cases result' with
    | error error => exact ⟨rfl, hon⟩
    | ok _ => exact ⟨rfl, hon⟩

/-! ## Commands -/

theorem AnswersOn.opening {here there : Except BuilderError Handle × Session Registry}
    (h : AnswersOn base here there) {enter : Context → Handle → Context}
    (henter : ∀ n c handle, enter (Context.raise n c) (handle.raise n) = (enter c handle).raise n) :
    (opening enter there).1 = (opening enter here).1 ∧
      On base (opening enter here).2 (opening enter there).2 := by
  obtain ⟨result, s₁⟩ := here
  obtain ⟨result', t₁⟩ := there
  obtain ⟨rfl, hon⟩ : result' = result.map (Handle.raise base.places.length) ∧ On base s₁ t₁ :=
    ⟨h.answer, h.on⟩
  cases result with
  | error error => exact ⟨rfl, hon⟩
  | ok handle =>
    refine ⟨rfl, ?_, hon.document, hon.lastLine, hon.errors, hon.diagnostics, hon.builder⟩
    show enter t₁.context (handle.raise base.places.length) = _
    rw [hon.context, henter]
    rfl

/-- A command about an object that is known is carried out on top. -/
theorem On.execute (h : On base s t) {command : Command}
    (hknown : ∀ handle, command.object? = some handle → (s.builder.place? handle).isSome) :
    (t.execute Registry.builder (command.raise base.places.length)).1 =
        (s.execute (Registry.builderAmong base.names) command).1 ∧
      On base (s.execute (Registry.builderAmong base.names) command).2
        (t.execute Registry.builder (command.raise base.places.length)).2 := by
  cases command with
  | close =>
    refine ⟨rfl, ?_, h.document, h.lastLine, h.errors, h.diagnostics, h.builder⟩
    show t.context.close = s.context.close.raise base.places.length
    rw [h.context, Context.close_raise]
  | openCompositor name => exact (h.createCompositor name).opening fun _ _ _ => rfl
  | openTechnique parent =>
    exact (h.createChild (hknown parent rfl) .technique).opening fun _ _ _ => rfl
  | openTarget parent output =>
    exact (h.createChildWith (hknown parent rfl) .target _).opening fun _ _ _ => rfl
  | openOutputTarget parent =>
    exact (h.createChild (hknown parent rfl) .outputTarget).opening fun _ _ _ => rfl
  | openPass parent type =>
    exact (h.createChildWith (hknown parent rfl) .pass _).opening fun _ _ _ => rfl
  | set object attr => exact h.setAttribute (hknown object rfl) attr

/-! ## Runs -/

/-- The object of a command is the innermost block, which the path knows below and hence on top. -/
theorem On.place?_object (h : On base s t) (hplaced : t.Placed) {action : Action} {token : Token}
    {arguments rest : Arguments} {command : Command} {handle : Handle}
    (hread : (Command.read s.context token action).run arguments = (.ok command, rest))
    (hobject : command.object? = some handle) : (s.builder.place? handle).isSome := by
  have hhandle := object_of_admits (admits_of_read hread) hobject
  have hraised : t.context.handle? t.context.innermost =
      some (handle.raise base.places.length) := by
    rw [h.context, Context.handle?_raise]
    show (s.context.handle? s.context.innermost).map _ = _
    rw [hhandle]
    rfl
  obtain ⟨place, hplace⟩ := exists_place hplaced hraised
  rw [h.builder, Registry.place?_on] at hplace
  cases hown : s.builder.place? handle with
  | none =>
    rw [hown] at hplace
    cases hplace
  | some _ => rfl

/-- A unit is dispatched on top of a registry as it is over an empty one. -/
theorem On.dispatch (h : On base s t) (hplaced : t.Placed) (action : Action) (token : Token)
    (arguments : Arguments) :
    (t.dispatch Registry.builder action token arguments).1 =
        (s.dispatch (Registry.builderAmong base.names) action token arguments).1 ∧
      On base (s.dispatch (Registry.builderAmong base.names) action token arguments).2.2
        (t.dispatch Registry.builder action token arguments).2.2 := by
  have hdepth : t.context.skipDepth = s.context.skipDepth := by
    rw [h.context]
    rfl
  unfold Session.dispatch
  rw [hdepth]
  by_cases hskip : 0 < s.context.skipDepth
  · rw [if_pos hskip, if_pos hskip]
    exact ⟨rfl, h.skip action⟩
  · rw [if_neg hskip, if_neg hskip, h.context, run_read_raise]
    rcases hread : (Command.read s.context token action).run arguments with
      ⟨(refusal | inconsistency) | command, rest⟩
    · exact ⟨rfl, h.refuse action token refusal⟩
    · exact ⟨rfl, h⟩
    · have hexecutes := h.execute fun _ hobject => h.place?_object hplaced hread hobject
      simp only [Except.map]
      generalize s.execute (Registry.builderAmong base.names) command = here at hexecutes ⊢
      generalize t.execute Registry.builder (command.raise base.places.length) = there
        at hexecutes ⊢
      obtain ⟨result, s₁⟩ := here
      obtain ⟨result', t₁⟩ := there
      obtain ⟨rfl, hon⟩ : result' = result ∧ On base s₁ t₁ := hexecutes
      cases result' with
      | error error => exact ⟨rfl, hon.refuse action token (.builder error)⟩
      | ok _ => exact ⟨rfl, hon⟩

/-- The handler of the registry follows that of one of its own. -/
theorem follows_on (base : Registry) :
    (handler (Registry.builderAmong base.names)).Follows (handler Registry.builder) 0 0 id
      fun s t => On base s t ∧ t.Placed where
  dispatch := by
    rintro u s t ⟨hon, hplaced⟩
    obtain ⟨hanswer, hon⟩ := hon.dispatch hplaced u.action u.token u.reader
    rw [u.moved_zero]
    exact ⟨hanswer.trans (mapError_id _).symm, hon,
      (dispatch_placed hplaced u.action u.token u.reader).1⟩
  mismatch := by
    rintro m s t ⟨hon, hplaced⟩
    exact ⟨hon.report _ _ _, hplaced.nested, hplaced.sound, hplaced.follows⟩

end

/-! ## Documents -/

theorem endDocument_placed {t : Session Registry} (h : t.Placed) : t.endDocument.Placed := by
  unfold Session.endDocument
  split
  · exact h
  · exact ⟨h.nested, h.sound, h.follows⟩

/-- A document is compiled over a registry as it is over an empty one in which the names are
    taken, on top. -/
theorem compile_on {base : Registry} (hbase : base.Reachable) (caseSensitive : Bool)
    (group : String) (d : Document) :
    let compiler := Compiler.standard caseSensitive group
    let own := compiler.compile (Registry.builderAmong base.names) d (.empty base.defaults)
    (compiler.compile Registry.builder d base).1 = own.1 ∧
      On base own.2 (compiler.compile Registry.builder d base).2 := by
  intro compiler own
  have hbegin : On base ((new group (.empty base.defaults)).beginDocument d)
      ((new group base).beginDocument d) ∧ ((new group base).beginDocument d).Placed :=
    ⟨⟨rfl, rfl, rfl, rfl, rfl, base.empty_on.symm⟩, placed_beginDocument d hbase⟩
  obtain ⟨hresult, hon, _⟩ := (follows_on base).run
    (fun h => ⟨h.1.endDocument, endDocument_placed h.2⟩) compiler.language d hbegin
  refine ⟨?_, hon⟩
  have hcompile : ∀ (b : Builder Registry) (builder : Registry),
      (compiler.compile b d builder).1 =
        (compiler.language.run (handler b) d (new group builder)).1.map fun summary =>
          { summary with
            errors := (compiler.language.run (handler b) d (new group builder)).2.errors } :=
    fun _ _ => rfl
  rw [hcompile, hresult, hon.errors]
  exact (hcompile _ _).symm

/-- The names of a registry stay distinct. -/
theorem brings_nodup : Registry.builder.Brings fun r r' => r.names.Nodup → r'.names.Nodup where
  refl _ hnodup := hnodup
  trans h h' hnodup := h' (h hnodup)
  createCompositor name group r hnodup := by
    show (r.createCompositor name group).2.names.Nodup
    rw [Registry.names_createCompositor]
    split
    · exact hnodup
    · rename_i hfree
      refine List.nodup_append.mpr ⟨hnodup, by simp, fun old hold new hnew => ?_⟩
      rw [List.mem_singleton.mp hnew]
      exact fun heq => hfree (heq ▸ hold)
  createChild parent kind r hnodup := by
    show (r.createChild parent kind).2.names.Nodup
    rwa [Registry.names_createChild]
  setAttribute object attr r hnodup := by
    show (r.setAttribute object attr).2.names.Nodup
    rwa [Registry.names_setAttribute]

/-- What a document does over a registry that operations have led to depends only on the defaults
    of the registry and on the names in it: the result, the diagnostics and the compositors that
    come after the old ones.  If the names were distinct they stay so. -/
theorem compile_isolated (caseSensitive : Bool) (group : String) (d : Document)
    {r₁ r₂ : Registry} (h₁ : r₁.Reachable) (h₂ : r₂.Reachable)
    (hdefaults : r₁.defaults = r₂.defaults) (hnames : ∀ name, name ∈ r₁.names ↔ name ∈ r₂.names) :
    let compiler := Compiler.standard caseSensitive group
    let outcome₁ := compiler.compile Registry.builder d r₁
    let outcome₂ := compiler.compile Registry.builder d r₂
    outcome₁.1 = outcome₂.1 ∧ outcome₁.2.diagnostics = outcome₂.2.diagnostics ∧
      (∃ added, outcome₁.2.builder.compositors = r₁.compositors ++ added ∧
        outcome₂.2.builder.compositors = r₂.compositors ++ added) ∧
      (r₁.names.Nodup → outcome₁.2.builder.names.Nodup) ∧
      (r₂.names.Nodup → outcome₂.2.builder.names.Nodup) := by
  intro compiler outcome₁ outcome₂
  obtain ⟨hresult₁, hon₁⟩ := compile_on h₁ caseSensitive group d
  obtain ⟨hresult₂, hon₂⟩ := compile_on h₂ caseSensitive group d
  -- both are compared with one run over an empty registry
  rw [hdefaults, Registry.builderAmong_congr hnames] at hresult₁ hon₁
  refine ⟨hresult₁.trans hresult₂.symm, hon₁.diagnostics.trans hon₂.diagnostics.symm,
    ⟨_, congrArg Registry.compositors hon₁.builder, congrArg Registry.compositors hon₂.builder⟩,
    compile_brings brings_nodup compiler d r₁, compile_brings brings_nodup compiler d r₂⟩

/-- Over one registry a compositor `Old` is empty, over the other it has a technique. -/
theorem compile_isolated_technique :
    let r₁ := ((Registry.empty .standard).createCompositor "Old" "General").2
    let r₂ := (r₁.createChild ⟨0⟩ .technique).2
    let compiler := Compiler.standard true "General"
    let d : Document := ⟨"new.compositor", "compositor Old \x7b\n\x7d\ncompositor New \x7b \x7d"⟩
    r₁.Reachable ∧ r₂.Reachable ∧ r₁ ≠ r₂ ∧
      (compiler.compile Registry.builder d r₁).1 = (compiler.compile Registry.builder d r₂).1 ∧
      (compiler.compile Registry.builder d r₁).2.diagnostics =
        (compiler.compile Registry.builder d r₂).2.diagnostics ∧
      ∃ added,
        (compiler.compile Registry.builder d r₁).2.builder.compositors = r₁.compositors ++ added ∧
        (compiler.compile Registry.builder d r₂).2.builder.compositors =
          r₂.compositors ++ added := by
  intro r₁ r₂ compiler d
  have h₁ : r₁.Reachable := .createCompositor "Old" "General" (.empty .standard)
  have h₂ : r₂.Reachable := .createChild ⟨0⟩ .technique h₁
  have hne : r₁ ≠ r₂ := by decide
  have hnames : r₁.names = r₂.names := rfl
  obtain ⟨hresult, hdiagnostics, hadded, _⟩ :=
    compile_isolated true "General" d h₁ h₂ rfl fun name => by rw [hnames]
  exact ⟨h₁, h₂, hne, hresult, hdiagnostics, hadded⟩

end Session
end Compositing.Script
