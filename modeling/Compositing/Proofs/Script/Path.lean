import Compositing.Proofs.Scene.Growth
import Compositing.Proofs.Script.Blocks
import Compositing.Proofs.Script.Nesting

/-! # The path of the open blocks

    While a document is carried out over a registry, the handles of the open
    blocks lead to a compositor, to a technique of it, to a target of that and
    to a pass of that.  A unit asks for nothing but what these objects have, so
    the registry refuses nothing but a name that is taken.

    The registry only grows, so the path need not be looked at where a unit
    does not open or close a block of it. -/

namespace Compositing.Script

/-! ## Paths -/

/-- The open block of a section has a handle, which stands for an object at the place. -/
def Context.Denotes (c : Context) (r : Registry) (within : Section) (place : Place) : Prop :=
  ∃ handle, c.handle? within = some handle ∧ r.place? handle = some place ∧ r.Holds place

/-- Each open block is one of the block around it, from a compositor of the name of the context
    down; an open target is the output target of its technique exactly if the context says so. -/
structure Context.Follows (c : Context) (r : Registry) : Prop where
  compositor : 1 ≤ c.innermost.depth → ∃ i compositor,
    c.Denotes r .compositor (.compositor i) ∧ r.compositors[i]? = some compositor ∧
      c.compositorName = some compositor.name
  technique : 2 ≤ c.innermost.depth → ∃ i t,
    c.Denotes r .compositor (.compositor i) ∧ c.Denotes r .technique (.technique i t)
  target : 3 ≤ c.innermost.depth → ∃ i t slot,
    c.Denotes r .technique (.technique i t) ∧ c.Denotes r .target (.target i t slot) ∧
      (slot = .output ↔ c.outputTarget = true)
  pass : 4 ≤ c.innermost.depth → ∃ i t slot p,
    c.Denotes r .target (.target i t slot) ∧ c.Denotes r .pass (.pass i t slot p)

section
variable {c c' : Context} {r r' : Registry} {within : Section} {place : Place}

/-- A block goes on to stand for its object while its handle is kept. -/
theorem Context.Denotes.keep (h : c.Denotes r within place) (hgrows : r.Grows r')
    (hhandle : c'.handle? within = c.handle? within) : c'.Denotes r' within place := by
  obtain ⟨handle, hsome, hplace, hholds⟩ := h
  exact ⟨handle, hhandle.trans hsome, hgrows.place? hplace, hgrows.holds hholds⟩

/-- A block that was opened with the handle for a place that was added. -/
theorem denotes_added (hadds : r.Adds [place] r')
    (hhandle : c'.handle? within = some ⟨r.places.length⟩) : c'.Denotes r' within place :=
  ⟨_, hhandle, hadds.place?, hadds.holds place (List.mem_singleton.mpr rfl)⟩

/-- The path of a context stays while the registry grows. -/
theorem Context.Follows.grows (h : c.Follows r) (hgrows : r.Grows r') : c.Follows r' where
  compositor := by
    intro hdepth
    obtain ⟨i, compositor, hdenotes, hcompositor, hname⟩ := h.compositor hdepth
    obtain ⟨compositor', hcompositor', hkept⟩ := hgrows.compositors i compositor hcompositor
    exact ⟨i, compositor', hdenotes.keep hgrows rfl, hcompositor', hkept.name ▸ hname⟩
  technique := by
    intro hdepth
    obtain ⟨i, t, hparent, hdenotes⟩ := h.technique hdepth
    exact ⟨i, t, hparent.keep hgrows rfl, hdenotes.keep hgrows rfl⟩
  target := by
    intro hdepth
    obtain ⟨i, t, slot, hparent, hdenotes, houtput⟩ := h.target hdepth
    exact ⟨i, t, slot, hparent.keep hgrows rfl, hdenotes.keep hgrows rfl, houtput⟩
  pass := by
    intro hdepth
    obtain ⟨i, t, slot, p, hparent, hdenotes⟩ := h.pass hdepth
    exact ⟨i, t, slot, p, hparent.keep hgrows rfl, hdenotes.keep hgrows rfl⟩

end

/-- There is no path where no block is open. -/
theorem follows_initial (group : String) (r : Registry) : (Context.initial group).Follows r := by
  constructor <;> intro hdepth <;> cases hdepth

/-! ## Opening and closing -/

section
variable {c : Context} {r r' : Registry} {i t p : Nat} {slot : TargetSlot}

theorem follows_openCompositor {name group : String}
    (hadds : r.Adds [.compositor r.compositors.length] r')
    (hcompositors : r'.compositors = r.compositors ++ [⟨name, group, []⟩]) :
    (c.openCompositor ⟨r.places.length⟩ name).Follows r' where
  compositor _ := by
    refine ⟨r.compositors.length, ⟨name, group, []⟩, denotes_added hadds rfl, ?_, rfl⟩
    rw [hcompositors, List.getElem?_append_right (Nat.le_refl _), Nat.sub_self]
    rfl
  technique hdepth := absurd (show 2 ≤ 1 from hdepth) (by decide)
  target hdepth := absurd (show 3 ≤ 1 from hdepth) (by decide)
  pass hdepth := absurd (show 4 ≤ 1 from hdepth) (by decide)

theorem follows_openTechnique (h : c.Follows r) (hin : c.innermost = .compositor)
    (hparent : c.Denotes r .compositor (.compositor i)) (hadds : r.Adds [.technique i t] r') :
    (c.openTechnique ⟨r.places.length⟩).Follows r' where
  compositor _ := (h.grows hadds.grows).compositor (by rw [hin]; decide)
  technique _ := ⟨i, t, hparent.keep hadds.grows rfl, denotes_added hadds rfl⟩
  target hdepth := absurd (show 3 ≤ 2 from hdepth) (by decide)
  pass hdepth := absurd (show 4 ≤ 2 from hdepth) (by decide)

theorem follows_openTarget (h : c.Follows r) (hin : c.innermost = .technique) {output : Bool}
    (hparent : c.Denotes r .technique (.technique i t)) (hadds : r.Adds [.target i t slot] r')
    (hslot : slot = .output ↔ output = true) :
    (c.openTarget ⟨r.places.length⟩ output).Follows r' where
  compositor _ := (h.grows hadds.grows).compositor (by rw [hin]; decide)
  technique _ := (h.grows hadds.grows).technique (by rw [hin]; decide)
  target _ := ⟨i, t, slot, hparent.keep hadds.grows rfl, denotes_added hadds rfl, hslot⟩
  pass hdepth := absurd (show 4 ≤ 3 from hdepth) (by decide)

theorem follows_openPass (h : c.Follows r) (hin : c.innermost = .target)
    (hparent : c.Denotes r .target (.target i t slot)) (hadds : r.Adds [.pass i t slot p] r') :
    (c.openPass ⟨r.places.length⟩).Follows r' where
  compositor _ := (h.grows hadds.grows).compositor (by rw [hin]; decide)
  technique _ := (h.grows hadds.grows).technique (by rw [hin]; decide)
  target _ := (h.grows hadds.grows).target (by rw [hin]; decide)
  pass _ := ⟨i, t, slot, p, hparent.keep hadds.grows rfl, denotes_added hadds rfl⟩

/-- Closing a block leaves the handles of the blocks around it. -/
theorem handle?_close {within : Section} (h : within.depth < c.innermost.depth) :
    c.close.handle? within = c.handle? within := by
  unfold Context.close
  cases hin : c.innermost <;> cases within <;>
    first | rfl | (rw [hin] at h; exact absurd h (by decide))

theorem compositorName_close (h : 1 < c.innermost.depth) :
    c.close.compositorName = c.compositorName := by
  unfold Context.close
  cases hin : c.innermost <;> first | rfl | (rw [hin] at h; exact absurd h (by decide))

theorem outputTarget_close (h : 3 < c.innermost.depth) :
    c.close.outputTarget = c.outputTarget := by
  unfold Context.close
  cases hin : c.innermost <;> first | rfl | (rw [hin] at h; exact absurd h (by decide))

/-- The blocks around one that is closed are still open. -/
theorem follows_close (h : c.Follows r) (hin : c.innermost ≠ .none) : c.close.Follows r := by
  have hdepth : c.close.innermost.depth + 1 = c.innermost.depth := depth_parent hin
  have hkeep : ∀ {within place}, within.depth < c.innermost.depth → c.Denotes r within place →
      c.close.Denotes r within place :=
    fun hless hdenotes => hdenotes.keep (.refl r) (handle?_close hless)
  constructor
  · intro hopen
    have hless : 1 < c.innermost.depth := by omega
    obtain ⟨i, compositor, hdenotes, hcompositor, hname⟩ := h.compositor (by omega)
    exact ⟨i, compositor, hkeep hless hdenotes, hcompositor,
      (compositorName_close hless).trans hname⟩
  · intro hopen
    have hless : 2 < c.innermost.depth := by omega
    obtain ⟨i, t, hparent, hdenotes⟩ := h.technique (by omega)
    exact ⟨i, t, hkeep (Nat.lt_of_succ_lt hless) hparent, hkeep hless hdenotes⟩
  · intro hopen
    have hless : 3 < c.innermost.depth := by omega
    obtain ⟨i, t, slot, hparent, hdenotes, hslot⟩ := h.target (by omega)
    refine ⟨i, t, slot, hkeep (Nat.lt_of_succ_lt hless) hparent, hkeep hless hdenotes, ?_⟩
    rw [outputTarget_close hless]
    exact hslot
  · -- there is no block inside a pass
    intro hopen
    have hle : c.innermost.depth ≤ 4 := by cases c.innermost <;> decide
    omega

end

/-! ## Requests -/

/-- The error that answers a request, if one does. -/
def Entry.error? : Entry → Option BuilderError
  | .compositor _ _ (.error error) | .child _ _ (.error error) | .attr _ _ (.error error) =>
    some error
  | _ => none

/-- A request is refused for nothing but a name that is taken. -/
def Entry.IsProper (entry : Entry) : Prop :=
  ∀ error, entry.error? = some error → ∃ kind name, error = .duplicateName kind name

theorem isProper_of_granted {entry : Entry} (h : entry.error? = none) : entry.IsProper := by
  intro error herror
  rw [h] at herror
  cases herror

theorem isProper_of_duplicate {entry : Entry} {kind : NamedKind} {name : String}
    (h : entry.error? = some (.duplicateName kind name)) : entry.IsProper := by
  intro error herror
  rw [h] at herror
  cases herror
  exact ⟨kind, name, rfl⟩

namespace Session

/-- What was asked and reported between two sessions, if no request in it was improper. -/
def AsksProperly {σ : Type} (s s' : Session σ) : Prop :=
  ∃ entries, s'.journal = entries ++ s.journal ∧ ∀ entry ∈ entries, entry.IsProper

section
variable {σ : Type} {s s' s'' : Session σ}

theorem AsksProperly.refl (s : Session σ) : s.AsksProperly s := ⟨[], rfl, by simp⟩

theorem AsksProperly.trans (h : s.AsksProperly s') (h' : s'.AsksProperly s'') :
    s.AsksProperly s'' := by
  obtain ⟨before, hbefore, hproper⟩ := h
  obtain ⟨after, hafter, hproper'⟩ := h'
  refine ⟨after ++ before, ?_, ?_⟩
  · rw [hafter, hbefore, List.append_assoc]
  · intro entry hentry
    rcases List.mem_append.mp hentry with hentry | hentry
    · exact hproper' entry hentry
    · exact hproper entry hentry

/-- One more entry. -/
theorem asksProperly_cons {entry : Entry} (hentry : entry.IsProper)
    (hjournal : s'.journal = entry :: s.journal) : s.AsksProperly s' :=
  ⟨[entry], hjournal, by simpa using hentry⟩

end

/-- What was asked of the registry was proper and left the context alone; the registry grew by
    some places. -/
structure Asked (s : Session Registry) (added : List Place) (s' : Session Registry) : Prop where
  adds : s.builder.Adds added s'.builder
  context : s'.context = s.context
  properly : s.AsksProperly s'

/-- The context is nested and its blocks are a path in a registry that has its objects. -/
structure Placed (s : Session Registry) : Prop where
  nested : s.context.Nested
  sound : s.builder.Sound
  follows : s.context.Follows s.builder

section
variable {s s' s'' : Session Registry} {added : List Place}

theorem Asked.trans {added' : List Place} (h : s.Asked added s') (h' : s'.Asked added' s'') :
    s.Asked (added ++ added') s'' :=
  ⟨h.adds.trans h'.adds, h'.context.trans h.context, h.properly.trans h'.properly⟩

/-- A request that was granted. -/
theorem asked_of_granted {r : Registry} {entry : Entry} (hadds : s.builder.Adds added r)
    (hentry : entry.error? = none) :
    s.Asked added { s with builder := r, journal := entry :: s.journal } :=
  ⟨hadds, rfl, asksProperly_cons (isProper_of_granted hentry) rfl⟩

/-- A request with a name that is taken. -/
theorem asked_of_duplicate {entry : Entry} {kind : NamedKind} {name : String}
    (hentry : entry.error? = some (.duplicateName kind name)) :
    s.Asked [] { s with journal := entry :: s.journal } :=
  ⟨.refl s.builder, rfl, asksProperly_cons (isProper_of_duplicate hentry) rfl⟩

/-- Requests keep the path. -/
theorem Asked.placed (hasked : s.Asked added s') (h : s.Placed) : s'.Placed := by
  obtain ⟨hadds, hcontext, _⟩ := hasked
  refine ⟨hcontext ▸ h.nested, h.sound.adds hadds, ?_⟩
  rw [hcontext]
  exact h.follows.grows hadds.grows

end

variable {s s' : Session Registry} {handle : Handle} {place : Place}

/-- A compositor is created, unless its name is taken. -/
theorem asked_createCompositor (s : Session Registry) (name : String) :
    (∃ s', s.createCompositor Registry.builder name = (.ok ⟨s.builder.places.length⟩, s') ∧
      s'.builder.compositors = s.builder.compositors ++ [⟨name, s.context.group, []⟩] ∧
      s.Asked [.compositor s.builder.compositors.length] s') ∨
    ∃ error s', s.createCompositor Registry.builder name = (.error error, s') ∧
      s.Asked [] s' := by
  have hanswer : ∀ {answer}, s.builder.createCompositor name s.context.group = answer →
      s.createCompositor Registry.builder name = (answer.1, { s with
        builder := answer.2
        journal := .compositor name s.context.group answer.1 :: s.journal }) := by
    rintro _ rfl
    rfl
  rcases Registry.createCompositor_cases s.builder name s.context.group with
    ⟨hcreate, _⟩ | ⟨r', hcreate, hadds, hcompositors⟩
  · exact .inr ⟨_, _, hanswer hcreate, asked_of_duplicate rfl⟩
  · exact .inl ⟨_, hanswer hcreate, hcompositors, asked_of_granted hadds rfl⟩

/-- A child that the object of a handle can own is created. -/
theorem asked_createChild {kind : ChildKind} (h : s.Placed)
    (hplace : s.builder.place? handle = some place)
    (hchild : ∃ child, Registry.IsChild kind place child) :
    ∃ child s', s.createChild Registry.builder handle kind =
        (.ok ⟨s.builder.places.length⟩, s') ∧
      Registry.IsChild kind place child ∧ s.Asked [child] s' := by
  have hanswer : ∀ {answer}, s.builder.createChild handle kind = answer →
      s.createChild Registry.builder handle kind = (answer.1, { s with
        builder := answer.2
        journal := .child handle kind answer.1 :: s.journal }) := by
    rintro _ rfl
    rfl
  rcases Registry.createChild_cases hplace (h.sound _ _ hplace) kind with
    ⟨child, r', hcreate, hchild, hadds⟩ | ⟨_, hno⟩
  · exact ⟨child, _, hanswer hcreate, hchild, asked_of_granted hadds rfl⟩
  · obtain ⟨child, hchild⟩ := hchild
    exact absurd hchild (hno child)

/-- An attribute that the object of a handle has is set, unless the name of a texture is taken. -/
theorem asked_setAttribute {attr : Attribute} (hplace : s.builder.place? handle = some place)
    (htakes : Registry.Takes place attr) :
    ∃ result s', s.setAttribute Registry.builder handle attr = (result, s') ∧ s.Asked [] s' ∧
      ((∃ texture, attr = .texture texture) ∨ result = .ok ()) := by
  have hanswer : ∀ {answer}, s.builder.setAttribute handle attr = answer →
      s.setAttribute Registry.builder handle attr = (answer.1, { s with
        builder := answer.2
        journal := .attr handle attr answer.1 :: s.journal }) := by
    rintro _ rfl
    rfl
  rcases Registry.setAttribute_cases hplace attr with
    ⟨_, r', hset, hadds⟩ | ⟨texture, htexture, hset⟩ | ⟨_, hno⟩
  · exact ⟨_, _, hanswer hset, asked_of_granted hadds rfl, .inr rfl⟩
  · exact ⟨_, _, hanswer hset, asked_of_duplicate rfl, .inl ⟨texture, htexture⟩⟩
  · exact absurd htakes hno

/-- A child that has the attribute asked for is created with it. -/
theorem asked_createChildWith {kind : ChildKind} (attr : Attribute) (h : s.Placed)
    (hplace : s.builder.place? handle = some place)
    (hchild : ∃ child, Registry.IsChild kind place child)
    (htakes : ∀ child, Registry.IsChild kind place child → Registry.Takes child attr)
    (hattr : ∀ texture, attr ≠ .texture texture) :
    ∃ child s', s.createChildWith Registry.builder handle kind attr =
        (.ok ⟨s.builder.places.length⟩, s') ∧
      Registry.IsChild kind place child ∧ s.Asked [child] s' := by
  obtain ⟨child, s₁, hcreate, hchild, hasked⟩ := asked_createChild h hplace hchild
  obtain ⟨result, s₂, hset, hasked', hresult⟩ :=
    asked_setAttribute (s := s₁) hasked.adds.place? (htakes child hchild)
  -- only a texture can have a name that is taken
  have hresult : result = .ok () :=
    hresult.resolve_left fun ⟨texture, htexture⟩ => hattr texture htexture
  subst hresult
  refine ⟨child, s₂, ?_, hchild, hasked.trans hasked'⟩
  simp only [createChildWith, hcreate, hset]

/-! ## Commands -/

/-- A block is opened with the handle of the child that was created for it. -/
theorem opening_placed {enter : Context → Handle → Context}
    {request : Except BuilderError Handle × Session Registry} {child : Place}
    (h : s.Placed) (hrequest : request = (.ok ⟨s.builder.places.length⟩, s'))
    (hasked : s.Asked [child] s')
    (hnested : (enter s.context ⟨s.builder.places.length⟩).Nested)
    (hfollows : (enter s.context ⟨s.builder.places.length⟩).Follows s'.builder) :
    (opening enter request).2.Placed ∧ s.AsksProperly (opening enter request).2 := by
  subst hrequest
  rw [← hasked.context] at hnested hfollows
  exact ⟨⟨hnested, h.sound.adds hasked.adds, hfollows⟩, hasked.properly⟩

/-- An attribute of the object of a handle is set, or not. -/
theorem set_placed {attr : Attribute} (h : s.Placed)
    (hplace : s.builder.place? handle = some place) (htakes : Registry.Takes place attr) :
    (s.setAttribute Registry.builder handle attr).2.Placed ∧
      s.AsksProperly (s.setAttribute Registry.builder handle attr).2 := by
  obtain ⟨result, s', hset, hasked, _⟩ := asked_setAttribute hplace htakes
  rw [hset]
  exact ⟨hasked.placed h, hasked.properly⟩

/-- A handle of the context that an open block denotes is a handle for its place. -/
theorem place?_of_denotes {within : Section} (h : s.context.Denotes s.builder within place)
    (hhandle : s.context.handle? within = some handle) :
    s.builder.place? handle = some place := by
  obtain ⟨handle', hhandle', hplace, _⟩ := h
  rw [hhandle] at hhandle'
  cases hhandle'
  exact hplace

/-- A command that may stand where it does, whether granted or not, keeps the path and asks for
    nothing improper. -/
theorem execute_placed {action : Action} {command : Command} (h : s.Placed)
    (hadmits : Admits s.context action command) :
    (s.execute Registry.builder command).2.Placed ∧
      s.AsksProperly (s.execute Registry.builder command).2 := by
  have hnested := nested_after h.nested hadmits
  -- an opener asks for a child of the block it stands in and any other unit for an attribute of
  -- it; the path says what that block is, so the object can own the child or has the attribute
  cases action with
  | closeBrace =>
    obtain ⟨hin, rfl⟩ := hadmits
    exact ⟨⟨hnested ⟨0⟩, h.sound, follows_close h.follows hin⟩, .refl s⟩
  | compositor =>
    obtain ⟨hin, name, rfl⟩ := hadmits
    rcases asked_createCompositor s name with
      ⟨s', hcreate, hcompositors, hasked⟩ | ⟨error, s', hcreate, hasked⟩
    · exact opening_placed h hcreate hasked (hnested _)
        (follows_openCompositor hasked.adds hcompositors)
    · simp only [execute, hcreate, opening]
      exact ⟨hasked.placed h, hasked.properly⟩
  | technique =>
    obtain ⟨hin, parent, hparent, rfl⟩ := hadmits
    obtain ⟨i, _, hdenotes, _⟩ := h.follows.compositor (by rw [hin]; decide)
    obtain ⟨_, s₁, hcreate, ⟨t⟩, hasked⟩ := asked_createChild h
      (place?_of_denotes hdenotes hparent) ⟨_, .technique 0⟩
    exact opening_placed h hcreate hasked (hnested _)
      (follows_openTechnique h.follows hin hdenotes hasked.adds)
  | target =>
    obtain ⟨hin, parent, output, hparent, rfl⟩ := hadmits
    obtain ⟨i, t, _, hdenotes⟩ := h.follows.technique (by rw [hin]; decide)
    obtain ⟨_, s₁, hcreate, ⟨t⟩, hasked⟩ :=
      asked_createChildWith (.target (.outputName output)) h
        (place?_of_denotes hdenotes hparent) ⟨_, .target 0⟩
        (by rintro _ ⟨_⟩; exact .target _) (by rintro _ ⟨⟩)
    exact opening_placed h hcreate hasked (hnested _)
      (follows_openTarget h.follows hin hdenotes hasked.adds
        (iff_of_false (by rintro ⟨⟩) (by rintro ⟨⟩)))
  | targetOutput =>
    obtain ⟨hin, parent, hparent, rfl⟩ := hadmits
    obtain ⟨i, t, _, hdenotes⟩ := h.follows.technique (by rw [hin]; decide)
    obtain ⟨_, s₁, hcreate, ⟨t⟩, hasked⟩ := asked_createChild h
      (place?_of_denotes hdenotes hparent) ⟨_, .outputTarget⟩
    exact opening_placed h hcreate hasked (hnested _)
      (follows_openTarget h.follows hin hdenotes hasked.adds ⟨fun _ => rfl, fun _ => rfl⟩)
  | pass =>
    obtain ⟨hin, parent, type, hparent, rfl⟩ := hadmits
    obtain ⟨i, t, slot, _, hdenotes, _⟩ := h.follows.target (by rw [hin]; decide)
    obtain ⟨_, s₁, hcreate, ⟨p⟩, hasked⟩ :=
      asked_createChildWith (.pass (.passType type)) h
        (place?_of_denotes hdenotes hparent) ⟨_, .pass 0⟩
        (by rintro _ ⟨_⟩; exact .pass _) (by rintro _ ⟨⟩)
    exact opening_placed h hcreate hasked (hnested _)
      (follows_openPass h.follows hin hdenotes hasked.adds)
  | texture =>
    obtain ⟨hin, technique, texture, htechnique, rfl⟩ := hadmits
    obtain ⟨i, t, _, hdenotes⟩ := h.follows.technique (by rw [hin]; decide)
    exact set_placed h (place?_of_denotes hdenotes htechnique) (.texture texture)
  | _ =>
    obtain ⟨hin, target, attr, htarget, _, rfl⟩ | ⟨hin, pass, attr, hpass, rfl⟩ := hadmits
    · obtain ⟨i, t, slot, _, hdenotes, _⟩ := h.follows.target (by rw [hin]; decide)
      exact set_placed h (place?_of_denotes hdenotes htarget) (.target attr)
    · obtain ⟨i, t, slot, p, _, hdenotes⟩ := h.follows.pass (by rw [hin]; decide)
      exact set_placed h (place?_of_denotes hdenotes hpass) (.pass attr)

/-! ## Dispatches -/

/-- A path does not depend on how many refused blocks are open. -/
theorem placed_skipDepth (h : s.Placed) (skipDepth : Nat)
    (hcontext : s'.context = { s.context with skipDepth }) (hbuilder : s'.builder = s.builder) :
    s'.Placed := by
  obtain ⟨hnested, hsound, hfollows⟩ := h
  refine ⟨?_, hbuilder ▸ hsound, ?_⟩
  · rw [hcontext]
    exact ⟨hnested.compositor, hnested.technique, hnested.target, hnested.pass,
      hnested.outputTarget⟩
  · rw [hcontext, hbuilder]
    exact ⟨hfollows.compositor, hfollows.technique, hfollows.target, hfollows.pass⟩

/-- A refusal is a report, and asks for nothing. -/
theorem refuse_placed (h : s.Placed) (action : Action) (token : Token) (refusal : Refusal) :
    (s.refuse action token refusal).Placed ∧
      s.AsksProperly (s.refuse action token refusal) :=
  ⟨placed_skipDepth h _ rfl rfl, asksProperly_cons (isProper_of_granted rfl) rfl⟩

/-- A unit keeps the path and asks for nothing improper, and it finds the object of the block
    it stands in. -/
theorem dispatch_placed (h : s.Placed) (action : Action) (token : Token)
    (arguments : Arguments) :
    (s.dispatch Registry.builder action token arguments).2.2.Placed ∧
      s.AsksProperly (s.dispatch Registry.builder action token arguments).2.2 ∧
      ∀ line within,
        (s.dispatch Registry.builder action token arguments).1 ≠
          .error ⟨line, .noHandle within⟩ := by
  have hd := dispatched Registry.builder s action token arguments
  generalize s.dispatch Registry.builder action token arguments = outcome at hd ⊢
  cases hd with
  | skipped _ => exact ⟨placed_skipDepth h _ rfl rfl, .refl s, nofun⟩
  | inconsistent _ hread =>
    -- a nested context has the handle of the block, so something else is inconsistent
    refine ⟨h, .refl s, ?_⟩
    rintro line within herror
    cases herror
    exact cause_of_read h.nested hread within rfl
  | unread _ _ =>
    obtain ⟨hplaced, hasks⟩ := refuse_placed h action token _
    exact ⟨hplaced, hasks, nofun⟩
  | ungranted _ hread hexecute =>
    -- what was asked before the refusal is kept, and is proper too
    obtain ⟨hplaced, hasks⟩ := execute_placed h (admits_of_read hread)
    rw [hexecute] at hplaced hasks
    obtain ⟨hplaced', hasks'⟩ := refuse_placed hplaced action token _
    exact ⟨hplaced', hasks.trans hasks', nofun⟩
  | done _ hread hexecute =>
    obtain ⟨hplaced, hasks⟩ := execute_placed h (admits_of_read hread)
    rw [hexecute] at hplaced hasks
    exact ⟨hplaced, hasks, nofun⟩

end Session

/-! ## Runs -/

namespace Session

variable {s : Session Registry}

theorem hear_placed (h : s.Placed) (call : Call) :
    (s.hear Registry.builder call).Placed ∧ s.AsksProperly (s.hear Registry.builder call) := by
  cases call with
  | dispatch action token arguments =>
    obtain ⟨hplaced, hasks, _⟩ := dispatch_placed h action token arguments
    exact ⟨hplaced, hasks⟩
  | mismatch m =>
    exact ⟨⟨h.nested, h.sound, h.follows⟩, asksProperly_cons (isProper_of_granted rfl) rfl⟩

theorem hearAll_placed (h : s.Placed) (cs : List Call) :
    (s.hearAll Registry.builder cs).Placed ∧
      s.AsksProperly (s.hearAll Registry.builder cs) := by
  induction cs generalizing s with
  | nil => exact ⟨h, .refl s⟩
  | cons call rest ih =>
    obtain ⟨hplaced, hasks⟩ := hear_placed h call
    obtain ⟨hplaced', hasks'⟩ := ih hplaced
    exact ⟨hplaced', hasks.trans hasks'⟩

/-- A document begins with no open block. -/
theorem placed_beginDocument (d : Document) (h : s.builder.Reachable) :
    (s.beginDocument d).Placed :=
  ⟨nested_initial _, h.sound, follows_initial _ _⟩

/-- After any calls of a document over a registry that operations have led to, there is a handle
    for each open block and for no other, and the handles are a path through the registry.
    Whatever was asked of the registry was granted or had a name that is taken, and no unit
    misses the object of the block that it stands in. -/
theorem hearAll_follows (d : Document) (s : Session Registry) (cs : List Call)
    (h : s.builder.Reachable) :
    let s' := (s.beginDocument d).hearAll Registry.builder cs
    s'.context.Nested ∧ s'.context.Follows s'.builder ∧ (s.beginDocument d).AsksProperly s' ∧
      ∀ action token arguments line within,
        (s'.dispatch Registry.builder action token arguments).1 ≠
          .error ⟨line, .noHandle within⟩ := by
  intro s'
  obtain ⟨hplaced, hasks⟩ := hearAll_placed (placed_beginDocument d h) cs
  refine ⟨hplaced.nested, hplaced.follows, hasks, fun action token arguments => ?_⟩
  exact (dispatch_placed hplaced action token arguments).2.2

/-- A pass of an output target, over a registry that has a compositor already. -/
theorem hearAll_follows_pass :
    let token := fun keyword : Keyword => Token.mk (.keyword keyword.id) 0 1
    let cs : List Call :=
      [.dispatch .compositor (token .compositor) ⟨[⟨.label "C", 0, 1⟩], 1⟩,
       .dispatch .technique (token .technique) ⟨[], 1⟩,
       .dispatch .targetOutput (token .targetOutput) ⟨[], 1⟩,
       .dispatch .pass (token .pass) ⟨[token .renderQuad], 1⟩]
    let r := ((Registry.empty .standard).createCompositor "Old" "General").2
    let s' := ((Session.new "General" r).beginDocument ⟨"d", ""⟩).hearAll Registry.builder cs
    r.Reachable ∧ s'.context.innermost = .pass ∧ ∃ i t slot p,
      s'.context.Denotes s'.builder .target (.target i t slot) ∧
        s'.context.Denotes s'.builder .pass (.pass i t slot p) := by
  intro token cs r s'
  have hreachable : r.Reachable := .createCompositor "Old" "General" (.empty .standard)
  have hin : s'.context.innermost = .pass := rfl
  have hfollows := (hearAll_follows ⟨"d", ""⟩ (.new "General" r) cs hreachable).2.1
  exact ⟨hreachable, hin, hfollows.pass (by decide)⟩

end Session
end Compositing.Script
