import Compositing.Proofs.Script.Dispatch
import Compositing.Scene.Registry

/-! # What is built and what is open

    While a document is carried out over a registry, the compositors are
    finished except for the last one, which is built along the blocks that are
    open.  A scope holds the finished compositors and, for each open block, the
    object so far, without the child that is open inside it.

    A context and a registry stand for a scope if the registry holds the
    compositors of the scope and the handles of the context lead to its open
    objects.  Each operation takes a scope to the next. -/

namespace Compositing

/-! ## The last of a list -/

theorem modify_length_append {α : Type} (l : List α) (x : α) (f : α → α) :
    (l ++ [x]).modify l.length f = l ++ [f x] := by
  induction l with
  | nil => rfl
  | cons y l ih => simp [ih]

/-! ## Objects with one more child -/

/-- The compositor with a technique added. -/
def Compositor.adding (c : Compositor) (t : Technique) : Compositor :=
  { c with techniques := c.techniques ++ [t] }

/-- The target with a pass added. -/
def Target.adding (g : Target) (p : Pass) : Target := { g with passes := g.passes ++ [p] }

namespace Technique

/-- The technique with its output target replaced, or with a target added. -/
def holding (output : Bool) (t : Technique) (g : Target) : Technique :=
  if output then { t with output := g } else { t with targets := t.targets ++ [g] }

/-- The slot of the target that `holding` puts in. -/
def slot (output : Bool) (t : Technique) : TargetSlot :=
  if output then .output else .named t.targets.length

variable (output : Bool) (t : Technique) (g : Target)

@[simp] theorem target?_holding : (t.holding output g).target? (t.slot output) = some g := by
  cases output with
  | true => rfl
  | false => simp [holding, slot, target?]

@[simp] theorem modifyTarget_holding (f : Target → Target) :
    (t.holding output g).modifyTarget (t.slot output) f = t.holding output (f g) := by
  cases output with
  | true => rfl
  | false => simp [holding, slot, modifyTarget, modify_length_append]

end Technique

/-! ## The last technique and its open target -/

namespace Registry
variable {r : Registry} {done : List Compositor} {c : Compositor} {t : Technique} {output : Bool}
  {g : Target}

theorem technique?_of_compositors (h : r.compositors = done ++ [c.adding t]) :
    r.technique? done.length c.techniques.length = some t := by
  simp [technique?, h, Compositor.adding]

theorem target?_of_compositors (h : r.compositors = done ++ [c.adding (t.holding output g)]) :
    r.target? done.length c.techniques.length (t.slot output) = some g := by
  simp [target?, technique?_of_compositors h]

theorem compositors_modifyTechnique (h : r.compositors = done ++ [c.adding t])
    (f : Technique → Technique) :
    (r.modifyTechnique done.length c.techniques.length f).compositors =
      done ++ [c.adding (f t)] := by
  simp [modifyTechnique, modifyCompositor, h, modify_length_append, Compositor.adding]

theorem compositors_modifyTarget (h : r.compositors = done ++ [c.adding (t.holding output g)])
    (f : Target → Target) :
    (r.modifyTarget done.length c.techniques.length (t.slot output) f).compositors =
      done ++ [c.adding (t.holding output (f g))] := by
  rw [modifyTarget, compositors_modifyTechnique h, Technique.modifyTarget_holding]

end Registry

/-! ## Scopes -/

namespace Script

/-- The finished compositors and the objects of the open blocks so far. -/
inductive Scope where
  | script (done : List Compositor)
  | compositor (done : List Compositor) (c : Compositor)
  | technique (done : List Compositor) (c : Compositor) (t : Technique)
  | target (done : List Compositor) (c : Compositor) (t : Technique) (output : Bool) (g : Target)
  | pass (done : List Compositor) (c : Compositor) (t : Technique) (output : Bool) (g : Target)
    (p : Pass)

namespace Scope

/-- The compositors, the open one included. -/
def compositors : Scope → List Compositor
  | script done => done
  | compositor done c => done ++ [c]
  | technique done c t => done ++ [c.adding t]
  | target done c t output g => done ++ [c.adding (t.holding output g)]
  | pass done c t output g p => done ++ [c.adding (t.holding output (g.adding p))]

/-- The innermost open block. -/
def innermost : Scope → Section
  | script _ => .none
  | compositor _ _ => .compositor
  | technique _ _ _ => .technique
  | target _ _ _ _ _ => .target
  | pass _ _ _ _ _ _ => .pass

/-- Is the output target open? -/
def output : Scope → Bool
  | target _ _ _ output _ | pass _ _ _ output _ _ => output
  | _ => false

/-- Where the object of an open block is. -/
def place? : Scope → Section → Option Place
  | pass done c t output g _, .pass =>
    some (.pass done.length c.techniques.length (t.slot output) g.passes.length)
  | pass done c t output _ _, .target | target done c t output _, .target =>
    some (.target done.length c.techniques.length (t.slot output))
  | pass done c _ _ _ _, .technique | target done c _ _ _, .technique
  | technique done c _, .technique => some (.technique done.length c.techniques.length)
  | pass done _ _ _ _ _, .compositor | target done _ _ _ _, .compositor
  | technique done _ _, .compositor | compositor done _, .compositor =>
    some (.compositor done.length)
  | _, _ => none

/-- The innermost block is closed: its object is finished. -/
def close : Scope → Scope
  | script done => script done
  | compositor done c => script (done ++ [c])
  | technique done c t => compositor done (c.adding t)
  | target done c t output g => technique done c (t.holding output g)
  | pass done c t output g p => target done c t output (g.adding p)

@[simp] theorem compositors_close (scope : Scope) :
    scope.close.compositors = scope.compositors := by
  cases scope <;> rfl

/-- Closing leaves the other open objects where they are. -/
theorem place?_close {scope : Scope} {within : Section} {place : Place}
    (h : scope.close.place? within = some place) :
    scope.place? within = some place ∧ within ≠ scope.innermost := by
  cases scope <;> cases within <;> simp_all [close, place?, innermost]

end Scope

/-! ## Standing for a scope -/

/-- The context has the blocks of the scope open, and the registry holds its compositors. -/
structure Stands (group : String) (defaults : Defaults) (scope : Scope) (context : Context)
    (r : Registry) : Prop where
  compositors : r.compositors = scope.compositors
  defaults : r.defaults = defaults
  group : context.group = group
  innermost : context.innermost = scope.innermost
  output : context.outputTarget = scope.output
  skipDepth : context.skipDepth = 0
  handles : ∀ within place, scope.place? within = some place →
    ∃ handle, context.handle? within = some handle ∧ r.place? handle = some place

namespace Stands
variable {group : String} {defaults : Defaults} {scope scope' : Scope} {context context' : Context}
  {r r' : Registry} {done : List Compositor} {c : Compositor} {t : Technique} {output : Bool}
  {g : Target} {p : Pass} {handle : Handle}

/-! ### Looking up and changing -/

/-- A handle of the context leads to the object. -/
theorem place? (h : Stands group defaults scope context r) (within : Section) {place : Place}
    (hplace : scope.place? within = some place) (hhandle : context.handle? within = some handle) :
    r.place? handle = some place := by
  obtain ⟨handle', hhandle', hplace'⟩ := h.handles within place hplace
  rw [hhandle] at hhandle'
  cases hhandle'
  exact hplace'

/-- A change of the objects that leaves them where they are. -/
theorem change (h : Stands group defaults scope context r)
    (hcompositors : r'.compositors = scope'.compositors) (hplaces : r'.places = r.places)
    (hdefaults : r'.defaults = r.defaults) (hinnermost : scope'.innermost = scope.innermost)
    (houtput : scope'.output = scope.output)
    (hplace : ∀ within, scope'.place? within = scope.place? within) :
    Stands group defaults scope' context r' where
  compositors := hcompositors
  defaults := hdefaults.trans h.defaults
  group := h.group
  innermost := h.innermost.trans hinnermost.symm
  output := h.output.trans houtput.symm
  skipDepth := h.skipDepth
  handles := by
    intro within place hwithin
    rw [hplace] at hwithin
    obtain ⟨handle, hhandle, hr⟩ := h.handles within place hwithin
    refine ⟨handle, hhandle, ?_⟩
    unfold Registry.place? at hr ⊢
    rw [hplaces]
    exact hr

/-- A block is opened: a handle is handed out for its object. -/
theorem enter (h : Stands group defaults scope context r) (within : Section) {place : Place}
    (hcompositors : r'.compositors = scope'.compositors) (hplaces : r'.places = r.places)
    (hdefaults : r'.defaults = r.defaults) (hgroup : context'.group = context.group)
    (hskip : context'.skipDepth = context.skipDepth)
    (hinnermost : context'.innermost = scope'.innermost)
    (houtput : context'.outputTarget = scope'.output)
    (hhandle : ∀ other, context'.handle? other =
      if other = within then some ⟨r.places.length⟩ else context.handle? other)
    (hplace : ∀ other, scope'.place? other =
      if other = within then some place else scope.place? other) :
    Stands group defaults scope' context' (r'.handOut place).2 where
  compositors := hcompositors
  defaults := hdefaults.trans h.defaults
  group := hgroup.trans h.group
  innermost := hinnermost
  output := houtput
  skipDepth := hskip.trans h.skipDepth
  handles := by
    intro other place' hother
    rw [hplace] at hother
    rw [hhandle]
    by_cases heq : other = within
    · rw [if_pos heq, Option.some.injEq] at hother
      rw [if_pos heq]
      refine ⟨_, rfl, ?_⟩
      simp [Registry.place?, Registry.handOut, hplaces, hother]
    · rw [if_neg heq] at hother
      rw [if_neg heq]
      obtain ⟨handle, hsome, hr⟩ := h.handles other place' hother
      refine ⟨handle, hsome, ?_⟩
      -- the table of places only grows
      have hlt : handle.index < r.places.length := by
        have hget : r.places[handle.index]? = some place' := hr
        exact (List.getElem?_eq_some_iff.mp hget).1
      simp only [Registry.place?, Registry.handOut, hplaces, List.getElem?_append_left hlt]
      exact hr

/-- The innermost block is closed. -/
theorem close (h : Stands group defaults scope context r) :
    Stands group defaults scope.close context.close r where
  compositors := by rw [h.compositors, Scope.compositors_close]
  defaults := h.defaults
  group := by
    rw [← h.group]
    unfold Context.close
    cases context.innermost <;> rfl
  innermost := by
    have hin : context.close.innermost = context.innermost.parent := rfl
    rw [hin, h.innermost]
    cases scope <;> rfl
  output := by
    have hin := h.innermost
    have hout := h.output
    unfold Context.close
    rw [hin]
    cases scope <;> first | rfl | exact hout
  skipDepth := by
    rw [← h.skipDepth]
    unfold Context.close
    cases context.innermost <;> rfl
  handles := by
    intro within place hwithin
    obtain ⟨hopen, hne⟩ := Scope.place?_close hwithin
    obtain ⟨handle, hhandle, hr⟩ := h.handles within place hopen
    refine ⟨handle, ?_, hr⟩
    rw [← h.innermost] at hne
    rw [← hhandle]
    unfold Context.close
    generalize context.innermost = innermost at hne
    cases innermost <;> cases within <;> first | rfl | exact absurd rfl hne

/-! ### Operations -/

theorem createCompositor (h : Stands group defaults (.script done) context r) {name : String}
    (hfresh : ∀ c ∈ done, c.name ≠ name) :
    ∃ handle r', r.createCompositor name group = (.ok handle, r') ∧
      Stands group defaults (.compositor done ⟨name, group, []⟩)
        (context.openCompositor handle name) r' := by
  have hcompositors : r.compositors = done := h.compositors
  have hfind : r.find? name = none := by
    rw [Registry.find?, hcompositors, List.find?_eq_none]
    intro c hc
    simpa using hfresh c hc
  let added : Registry := { r with compositors := r.compositors ++ [⟨name, group, []⟩] }
  refine ⟨⟨r.places.length⟩, (added.handOut (.compositor done.length)).2, ?_, ?_⟩
  · simp only [Registry.createCompositor, hfind, ← hcompositors]
    rfl
  · refine h.enter .compositor ?_ rfl rfl rfl rfl rfl h.output ?_ ?_
    · show r.compositors ++ _ = _
      rw [hcompositors]
      rfl
    · intro other
      cases other <;> rfl
    · intro other
      cases other <;> rfl

/-- A child of an object is created where it is added. -/
theorem createChild_of_addChild {parent : Handle} {place child : Place} {kind : ChildKind}
    (hparent : r.place? parent = some place) (hadd : r.addChild place kind = .ok (child, r')) :
    r.createChild parent kind = (.ok ⟨r'.places.length⟩, (r'.handOut child).2) := by
  simp only [Registry.createChild, hparent, hadd]
  rfl

theorem createTechnique (h : Stands group defaults (.compositor done c) context r)
    (hhandle : context.handle? .compositor = some handle) :
    ∃ child r', r.createChild handle .technique = (.ok child, r') ∧
      Stands group defaults (.technique done c (.new defaults)) (context.openTechnique child)
        r' := by
  have hparent := h.place? .compositor rfl hhandle
  have hcompositors : r.compositors = done ++ [c] := h.compositors
  refine ⟨_, _, createChild_of_addChild hparent rfl, ?_⟩
  refine h.enter .technique ?_ rfl rfl rfl rfl rfl h.output ?_ ?_
  · simp [Registry.modifyCompositor, hcompositors, modify_length_append, h.defaults,
      Scope.compositors, Compositor.adding]
  · intro other
    cases other <;> rfl
  · intro other
    simp only [hcompositors]
    cases other <;> simp [Scope.place?]

theorem createTarget (h : Stands group defaults (.technique done c t) context r)
    (hhandle : context.handle? .technique = some handle) :
    ∃ child r', r.createChild handle .target = (.ok child, r') ∧
      Stands group defaults (.target done c t false (.new defaults))
        (context.openTarget child false) r' := by
  have hparent := h.place? .technique rfl hhandle
  have htechnique := Registry.technique?_of_compositors h.compositors
  refine ⟨_, _, createChild_of_addChild hparent rfl, ?_⟩
  refine h.enter .target ?_ rfl rfl rfl rfl rfl rfl ?_ ?_
  · rw [Registry.compositors_modifyTechnique h.compositors, h.defaults]
    rfl
  · intro other
    cases other <;> rfl
  · intro other
    simp only [htechnique]
    cases other <;> simp [Scope.place?, Technique.slot]

theorem createOutputTarget (h : Stands group defaults (.technique done c t) context r)
    (hhandle : context.handle? .technique = some handle) :
    ∃ child r', r.createChild handle .outputTarget = (.ok child, r') ∧
      Stands group defaults (.target done c t true t.output) (context.openTarget child true)
        r' := by
  have hparent := h.place? .technique rfl hhandle
  refine ⟨_, _, createChild_of_addChild hparent rfl, ?_⟩
  refine h.enter .target h.compositors rfl rfl rfl rfl rfl rfl ?_ ?_
  · intro other
    cases other <;> rfl
  · intro other
    cases other <;> rfl

theorem createPass (h : Stands group defaults (.target done c t output g) context r)
    (hhandle : context.handle? .target = some handle) :
    ∃ child r', r.createChild handle .pass = (.ok child, r') ∧
      Stands group defaults (.pass done c t output g (.new defaults))
        (context.openPass child) r' := by
  have hparent := h.place? .target rfl hhandle
  have htarget := Registry.target?_of_compositors h.compositors
  refine ⟨_, _, createChild_of_addChild hparent rfl, ?_⟩
  refine h.enter .pass ?_ rfl rfl rfl rfl rfl h.output ?_ ?_
  · rw [Registry.compositors_modifyTarget h.compositors, h.defaults]
    rfl
  · intro other
    cases other <;> rfl
  · intro other
    simp only [htarget]
    cases other <;> simp [Scope.place?]

/-- A texture whose name is free is added. -/
theorem setTexture (h : Stands group defaults (.technique done c t) context r)
    (hhandle : context.handle? .technique = some handle) (texture : Texture)
    (hfresh : ∀ other ∈ t.textures, other.name ≠ texture.name) :
    ∃ r', r.setAttribute handle (.texture texture) = (.ok (), r') ∧
      Stands group defaults
        (.technique done c { t with textures := t.textures ++ [texture] }) context r' := by
  have hplace := h.place? .technique rfl hhandle
  have htechnique := Registry.technique?_of_compositors h.compositors
  have hfree : (t.textures.any fun other => other.name == texture.name) = false := by
    simpa [List.any_eq_false] using hfresh
  refine ⟨r.modifyTechnique done.length c.techniques.length fun technique =>
    { technique with textures := technique.textures ++ [texture] }, ?_, ?_⟩
  · simp [Registry.setAttribute, hplace, htechnique, hfree]
  · refine h.change (Registry.compositors_modifyTechnique h.compositors _) rfl rfl rfl rfl ?_
    intro within
    cases within <;> rfl

theorem setTarget (h : Stands group defaults (.target done c t output g) context r)
    (hhandle : context.handle? .target = some handle) (attr : TargetAttribute) :
    ∃ r', r.setAttribute handle (.target attr) = (.ok (), r') ∧
      Stands group defaults (.target done c t output (g.set attr)) context r' := by
  have hplace := h.place? .target rfl hhandle
  refine ⟨r.modifyTarget done.length c.techniques.length (t.slot output) (·.set attr), ?_, ?_⟩
  · simp only [Registry.setAttribute, hplace]
  · refine h.change (Registry.compositors_modifyTarget h.compositors _) rfl rfl rfl rfl ?_
    intro within
    cases within <;> rfl

theorem setPass (h : Stands group defaults (.pass done c t output g p) context r)
    (hhandle : context.handle? .pass = some handle) (attr : PassAttribute) :
    ∃ r', r.setAttribute handle (.pass attr) = (.ok (), r') ∧
      Stands group defaults (.pass done c t output g (p.set attr)) context r' := by
  have hplace := h.place? .pass rfl hhandle
  refine ⟨r.modifyPass done.length c.techniques.length (t.slot output) g.passes.length
    (·.set attr), ?_, ?_⟩
  · simp only [Registry.setAttribute, hplace]
  · refine h.change ?_ rfl rfl rfl rfl ?_
    · rw [Registry.modifyPass, Registry.compositors_modifyTarget h.compositors]
      simp [Target.adding, modify_length_append, Scope.compositors]
    · intro within
      cases within <;> rfl

end Stands
end Script
end Compositing
