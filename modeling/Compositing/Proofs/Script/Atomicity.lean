import Compositing.Proofs.Scene.Creation
import Compositing.Proofs.Script.Path

/-! # Units that go wrong

    A unit reads its arguments, looks for its section and asks the builder in
    an order of its own, and any of these can fail.  A failure comes before
    anything is changed: the first request is the only one that can be refused,
    as a second one follows only on a new object that has the attribute asked
    for.  So a unit is carried out as a whole or not at all. -/

namespace Compositing.Script

/-! ## Units that are carried out -/

/-- The object that a unit of an action opens a block for: where it is, inside the object of the
    innermost open block, and what it is at first. -/
inductive Opens (c : Context) (r : Registry) : Action → Place → SceneObject → Prop where
  | compositor (hin : c.innermost = .none) (name : String) :
    Opens c r .compositor (.compositor r.compositors.length) (.compositor name c.group)
  | technique {i : Nat} (hin : c.innermost = .compositor)
      (hparent : c.Denotes r .compositor (.compositor i)) (t : Nat) :
    Opens c r .technique (.technique i t) (.technique [])
  | target {i t : Nat} (hin : c.innermost = .technique)
      (hparent : c.Denotes r .technique (.technique i t)) (n : Nat) (output : String) :
    Opens c r .target (.target i t (.named n))
      (.target ((Target.new r.defaults).set (.outputName output)))
  | targetOutput {i t : Nat} {g : Target} (hin : c.innermost = .technique)
      (hparent : c.Denotes r .technique (.technique i t))
      (hthere : r.object? (.target i t .output) = some (.target g)) :
    Opens c r .targetOutput (.target i t .output) (.target g)
  | pass {i t : Nat} {slot : TargetSlot} (hin : c.innermost = .target)
      (hparent : c.Denotes r .target (.target i t slot)) (p : Nat) (type : PassType) :
    Opens c r .pass (.pass i t slot p) (.pass ((Pass.new r.defaults).set (.passType type)))

/-- What a unit of an action does when it is carried out: a closing brace closes a block and
    leaves the registry alone, an opener creates its one object and enters it, and an option sets
    one attribute of the object of the innermost open block. -/
inductive Does (s s' : Session Registry) : Action → Prop where
  | closed (hopen : s.context.innermost ≠ .none) (hbuilder : s'.builder = s.builder)
      (hcontext : s'.context = s.context.close) : Does s s' .closeBrace
  | opened {action : Action} {place : Place} {object : SceneObject}
      (hopens : Opens s.context s.builder action place object)
      (hcreates : s.builder.Creates place object s'.builder)
      (henters : s'.context.Denotes s'.builder s'.context.innermost place) : Does s s' action
  | set {action : Action} {place : Place} {attr : Attribute}
      (hopens : action.opensBlock = false) (hbrace : action ≠ .closeBrace)
      (hdenotes : s.context.Denotes s.builder s.context.innermost place)
      (htakes : Registry.Takes place attr) (hchanges : s.builder.Changes place attr s'.builder)
      (hcontext : s'.context = s.context) : Does s s' action

/-- A block that was opened with the handle for the object that was created. -/
theorem denotes_created {c : Context} {r r' : Registry} {within : Section} {place : Place}
    {object : SceneObject} (hcreates : r.Creates place object r')
    (hhandle : c.handle? within = some ⟨r.places.length⟩) : c.Denotes r' within place :=
  ⟨_, hhandle, hcreates.place?, hcreates.holds⟩

/-! ## Commands -/

namespace Session
variable {s s' : Session Registry} {handle : Handle} {place : Place}

/-- What became of a command: it did what its action does, or it was refused and the registry is
    as it was. -/
def AllOrNothing (s : Session Registry) (action : Action)
    (outcome : Except BuilderError Unit × Session Registry) : Prop :=
  (outcome.1 = .ok () ∧ Does s outcome.2 action) ∨
    ((∃ error, outcome.1 = .error error) ∧ outcome.2.builder = s.builder)

/-- An attribute of the object of the innermost open block is set, or the name of a texture is
    taken. -/
theorem allOrNothing_set {action : Action} {attr : Attribute} (h : s.Placed)
    (hopens : action.opensBlock = false) (hbrace : action ≠ .closeBrace)
    (hdenotes : s.context.Denotes s.builder s.context.innermost place)
    (hhandle : s.context.handle? s.context.innermost = some handle)
    (htakes : Registry.Takes place attr) :
    AllOrNothing s action (s.execute Registry.builder (.set handle attr)) := by
  have hplace := place?_of_denotes hdenotes hhandle
  rcases Registry.setAttribute_changes h.sound hplace htakes with
    ⟨r', hset, hchanges⟩ | ⟨_, error, hset⟩
  · obtain ⟨journal, hexecute⟩ := execute_set (b := Registry.builder) hset
    rw [hexecute]
    exact .inl ⟨rfl, .set hopens hbrace hdenotes htakes hchanges rfl⟩
  · have hset : Registry.builder.setAttribute handle attr s.builder = (.error error, s.builder) :=
      hset
    simp only [execute, setAttribute, hset]
    exact .inr ⟨⟨error, rfl⟩, rfl⟩

/-- A unit of an action that is read to a command is carried out, or it is refused and the
    registry is as it was. -/
theorem execute_allOrNothing {action : Action} {command : Command} (h : s.Placed)
    (hadmits : Admits s.context action command) :
    AllOrNothing s action (s.execute Registry.builder command) := by
  -- the path says what the object of the block is; it can own the child that an opener asks for,
  -- so only a name that is taken is a reason to refuse
  cases action with
  | closeBrace =>
    obtain ⟨hin, rfl⟩ := hadmits
    exact .inl ⟨rfl, .closed hin rfl rfl⟩
  | compositor =>
    obtain ⟨hin, name, rfl⟩ := hadmits
    rcases Registry.createCompositor_creates h.sound name s.context.group with
      ⟨r', hcreate, hcreates⟩ | ⟨error, hcreate⟩
    · obtain ⟨journal, hexecute⟩ := opening_createCompositor (b := Registry.builder)
        (fun c handle => c.openCompositor handle name) hcreate
      simp only [execute, hexecute]
      exact .inl ⟨rfl, .opened (.compositor hin name) hcreates (denotes_created hcreates rfl)⟩
    · have hcreate : Registry.builder.createCompositor name s.context.group s.builder =
          (.error error, s.builder) := hcreate
      simp only [execute, createCompositor, hcreate, opening]
      exact .inr ⟨⟨error, rfl⟩, rfl⟩
  | technique =>
    obtain ⟨hin, parent, hparent, rfl⟩ := hadmits
    obtain ⟨i, _, hdenotes, _⟩ := h.follows.compositor (by rw [hin]; decide)
    obtain ⟨_, r', hcreate, ⟨t⟩, hout⟩ := Registry.createChild_handsOut h.sound
      (place?_of_denotes hdenotes hparent) ⟨_, .technique 0⟩
    obtain ⟨journal, hexecute⟩ :=
      opening_createChild (b := Registry.builder) Context.openTechnique hcreate
    have hcreates := hout.creates_technique
    simp only [execute, hexecute]
    exact .inl ⟨rfl, .opened (.technique hin hdenotes t) hcreates (denotes_created hcreates rfl)⟩
  | target =>
    obtain ⟨hin, parent, output, hparent, rfl⟩ := hadmits
    obtain ⟨i, t, _, hdenotes⟩ := h.follows.technique (by rw [hin]; decide)
    obtain ⟨child, r₁, r', hcreate, hset, hchild, hout, hchanges⟩ :=
      Registry.createChild_set h.sound (.target (.outputName output))
        (place?_of_denotes hdenotes hparent) ⟨_, .target 0⟩
        (by rintro _ ⟨_⟩; exact .target _) (by rintro _ ⟨⟩)
    obtain ⟨journal, hexecute⟩ := opening_createChildWith (b := Registry.builder)
      (fun c handle => c.openTarget handle false) hcreate hset
    obtain ⟨n, rfl⟩ : ∃ n, child = .target i t (.named n) := by
      cases hchild
      exact ⟨_, rfl⟩
    have hcreates := hout.creates_target.set (.head _) hchanges
    simp only [execute, hexecute]
    exact .inl ⟨rfl,
      .opened (.target hin hdenotes n output) hcreates (denotes_created hcreates rfl)⟩
  | targetOutput =>
    obtain ⟨hin, parent, hparent, rfl⟩ := hadmits
    obtain ⟨i, t, _, hdenotes⟩ := h.follows.technique (by rw [hin]; decide)
    obtain ⟨_, r', hcreate, ⟨⟩, hout⟩ := Registry.createChild_handsOut h.sound
      (place?_of_denotes hdenotes hparent) ⟨_, .outputTarget⟩
    obtain ⟨journal, hexecute⟩ := opening_createChild (b := Registry.builder)
      (fun c handle => c.openTarget handle true) hcreate
    obtain ⟨g, hthere, hcreates⟩ := hout.creates_output
    simp only [execute, hexecute]
    exact .inl ⟨rfl,
      .opened (.targetOutput hin hdenotes hthere) hcreates (denotes_created hcreates rfl)⟩
  | pass =>
    obtain ⟨hin, parent, type, hparent, rfl⟩ := hadmits
    obtain ⟨i, t, slot, _, hdenotes, _⟩ := h.follows.target (by rw [hin]; decide)
    obtain ⟨child, r₁, r', hcreate, hset, hchild, hout, hchanges⟩ :=
      Registry.createChild_set h.sound (.pass (.passType type))
        (place?_of_denotes hdenotes hparent) ⟨_, .pass 0⟩
        (by rintro _ ⟨_⟩; exact .pass _) (by rintro _ ⟨⟩)
    obtain ⟨journal, hexecute⟩ :=
      opening_createChildWith (b := Registry.builder) Context.openPass hcreate hset
    obtain ⟨p, rfl⟩ : ∃ p, child = .pass i t slot p := by
      cases hchild
      exact ⟨_, rfl⟩
    have hcreates := hout.creates_pass.set (.head _) hchanges
    simp only [execute, hexecute]
    exact .inl ⟨rfl, .opened (.pass hin hdenotes p type) hcreates (denotes_created hcreates rfl)⟩
  | texture =>
    obtain ⟨hin, technique, texture, htechnique, rfl⟩ := hadmits
    obtain ⟨i, t, _, hdenotes⟩ := h.follows.technique (by rw [hin]; decide)
    rw [← hin] at hdenotes htechnique
    exact allOrNothing_set h rfl (by decide) hdenotes htechnique (.texture texture)
  | _ =>
    obtain ⟨hin, target, attr, htarget, _, rfl⟩ | ⟨hin, pass, attr, hpass, rfl⟩ := hadmits
    · obtain ⟨i, t, slot, _, hdenotes, _⟩ := h.follows.target (by rw [hin]; decide)
      rw [← hin] at hdenotes htarget
      exact allOrNothing_set h rfl (by decide) hdenotes htarget (.target attr)
    · obtain ⟨i, t, slot, p, _, hdenotes⟩ := h.follows.pass (by rw [hin]; decide)
      rw [← hin] at hdenotes hpass
      exact allOrNothing_set h rfl (by decide) hdenotes hpass (.pass attr)

/-! ## Dispatches -/

/-- The ways a unit can end, by its answer and the session after it: it is skipped, it fails and
    nothing happens, it is refused with one report, or it is carried out without one. -/
inductive Settles (s : Session Registry) (action : Action) :
    Except Inconsistency Flow → Session Registry → Prop where
  | skipped (hskip : 0 < s.context.skipDepth) : Settles s action (.ok .continue) (s.skip action)
  | failed (inconsistency : Inconsistency) : Settles s action (.error inconsistency) s
  | refused {flow : Flow} {s' : Session Registry} (hskip : s.context.skipDepth = 0)
      (hreport : ∃ x, s'.diagnostics = s.diagnostics ++ [x]) (hbuilder : s'.builder = s.builder)
      (hcontext : s'.context =
        if action.opensBlock then { s.context with skipDepth := 1 } else s.context) :
    Settles s action (.ok flow) s'
  | done {s' : Session Registry} (hskip : s.context.skipDepth = 0)
      (hreport : s'.diagnostics = s.diagnostics) (hdoes : Does s s' action) :
    Settles s action (.ok .continue) s'

/-- A refusal is one report; the registry is as it was, and so is the context, but that the block
    of an opener is skipped. -/
theorem settles_refuse {s₁ : Session Registry} (hskip : s.context.skipDepth = 0)
    (hrequested : Requested s s₁) (hbuilder : s₁.builder = s.builder) (action : Action)
    (token : Token) (refusal : Refusal) (flow : Flow) :
    Settles s action (.ok flow) (s₁.refuse action token refusal) := by
  refine .refused hskip ⟨s₁.diagnostic refusal.kind token.line refusal.message, ?_⟩ hbuilder ?_
  · rw [refuse_diagnostics, hrequested.diagnostics]
  · simp only [refuse, report_context, hrequested.context]
    split <;> rfl

/-- Every dispatch over a path ends one of these ways. -/
theorem dispatch_settles (h : s.Placed) {action : Action} {token : Token}
    {arguments rest : Arguments} {answer : Except Inconsistency Flow}
    (hdispatch : s.dispatch Registry.builder action token arguments = (answer, rest, s')) :
    Settles s action answer s' := by
  have hd := dispatched Registry.builder s action token arguments
  rw [hdispatch] at hd
  cases hd with
  | skipped hskip => exact .skipped hskip
  | inconsistent _ _ => exact .failed _
  | unread hskip _ =>
    -- the builder is asked for nothing before all arguments are read
    exact settles_refuse hskip ⟨rfl, rfl, rfl, rfl, rfl⟩ rfl action token _ _
  | ungranted hskip hread hexecute =>
    have hexecuted := execute_allOrNothing h (admits_of_read hread)
    rw [hexecute] at hexecuted
    rcases hexecuted with ⟨hok, _⟩ | ⟨_, hbuilder⟩
    · cases hok
    · exact settles_refuse hskip (execute_error hexecute) hbuilder action token _ _
  | done hskip hread hexecute =>
    have hexecuted := execute_allOrNothing h (admits_of_read hread)
    rw [hexecute] at hexecuted
    rcases hexecuted with ⟨_, hdoes⟩ | ⟨⟨_, herror⟩, _⟩
    · obtain ⟨handle, s₁, hrequested, hafter⟩ := execute_ok hexecute
      refine .done hskip ?_ hdoes
      rw [hafter]
      exact hrequested.diagnostics
    · cases herror

/-- After any calls of a document over a registry that operations have led to, a unit reports one
    problem or none.  If it reports one, or its answer is an error, the registry is as it was, its
    handles included, and so is the context, but that a refused opener, which is none inside a
    skipped block, begins to skip its block.  If it reports none outside a skipped block and is
    answered without an error, it is carried out: a closing brace leaves the registry alone, an
    opener creates exactly its one object, or hands out the output target that is there, and any
    other unit sets one attribute of the object of the innermost open block, and of no other. -/
theorem dispatch_atomic (d : Document) (s : Session Registry) (cs : List Call)
    (h : s.builder.Reachable) (action : Action) (token : Token) (arguments : Arguments) :
    let before := (s.beginDocument d).hearAll Registry.builder cs
    let outcome := before.dispatch Registry.builder action token arguments
    let after := outcome.2.2
    (after.diagnostics = before.diagnostics ∨
      ∃ x, after.diagnostics = before.diagnostics ++ [x]) ∧
    (after.diagnostics ≠ before.diagnostics →
      after.builder = before.builder ∧ before.context.skipDepth = 0 ∧
        after.context =
          if action.opensBlock then { before.context with skipDepth := 1 } else before.context) ∧
    (∀ inconsistency, outcome.1 = .error inconsistency → after = before) ∧
    (before.context.skipDepth = 0 → after.diagnostics = before.diagnostics →
      (∃ flow, outcome.1 = .ok flow) → Does before after action ∧
        (action = .targetOutput → after.builder.compositors = before.builder.compositors)) := by
  intro before outcome after
  have hplaced : before.Placed := (hearAll_placed (placed_beginDocument d h) cs).1
  have hsettles : Settles before action outcome.1 after :=
    dispatch_settles hplaced (show outcome = (outcome.1, outcome.2.1, after) from rfl)
  generalize outcome.1 = answer at hsettles ⊢
  generalize after = after at hsettles ⊢
  cases hsettles with
  | skipped hskip =>
    refine ⟨.inl rfl, fun hne => absurd rfl hne, nofun, fun hzero => ?_⟩
    omega
  | failed inconsistency =>
    exact ⟨.inl rfl, fun hne => absurd rfl hne, fun _ _ => rfl, fun _ _ ⟨_, hok⟩ => nomatch hok⟩
  | refused hskip hreport hbuilder hcontext =>
    refine ⟨.inr hreport, fun _ => ⟨hbuilder, hskip, hcontext⟩, nofun, fun _ hsame => ?_⟩
    -- a report makes the diagnostics longer
    obtain ⟨x, hreport⟩ := hreport
    rw [hreport] at hsame
    simp at hsame
  | done hskip hreport hdoes =>
    refine ⟨.inl hreport, fun hne => absurd hreport hne, nofun, fun _ _ _ => ⟨hdoes, ?_⟩⟩
    rintro rfl
    cases hdoes with
    | opened hopens hcreates _ =>
      cases hopens with
      | targetOutput _ _ _ => exact hcreates.compositors_eq
    | set hopens _ _ _ _ _ => cases hopens

/-- A compositor whose name is taken: nothing but the report and the skipped block. -/
theorem dispatch_atomic_nameTaken :
    let r := ((Registry.empty .standard).createCompositor "Old" "General").2
    let before := (Session.new "General" r).beginDocument ⟨"d", ""⟩
    let after := (before.dispatch Registry.builder .compositor
      ⟨.keyword Keyword.compositor.id, 0, 1⟩ ⟨[⟨.label "Old", 0, 1⟩], 1⟩).2.2
    r.Reachable ∧ after.diagnostics ≠ before.diagnostics ∧ after.builder = r ∧
      after.context = { before.context with skipDepth := 1 } := by
  intro r before after
  have hreachable : r.Reachable := .createCompositor "Old" "General" (.empty .standard)
  have hreported : after.diagnostics ≠ before.diagnostics := by
    intro hsame
    have hlength : after.diagnostics.length = before.diagnostics.length :=
      congrArg List.length hsame
    exact absurd hlength (by decide)
  obtain ⟨_, hrefused, _⟩ := dispatch_atomic ⟨"d", ""⟩ (.new "General" r) [] hreachable .compositor
    ⟨.keyword Keyword.compositor.id, 0, 1⟩ ⟨[⟨.label "Old", 0, 1⟩], 1⟩
  obtain ⟨hbuilder, _, hcontext⟩ := hrefused hreported
  exact ⟨hreachable, hreported, hbuilder, hcontext⟩

end Session
end Compositing.Script
