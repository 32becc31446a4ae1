import Compositing.Proofs.Script.Describing
import Compositing.Proofs.Script.Outcome
import Compositing.Proofs.Script.Scope
import Compositing.Proofs.Script.Values

/-! # Building what is described

    Where the blocks around it are open, each described unit is read, granted
    and leads to the next scope; nothing is reported.  From the steps of units
    follow those of whole objects, along the description: `Builds` says that
    units in turn lead from one scope to another. -/

namespace Compositing.Script

/-! ## Steps -/

section
variable (group : String) (defaults : Defaults)

/-- A session that stands for the scope and has reported nothing. -/
structure Shows (scope : Scope) (s : Session Registry) : Prop where
  stands : Stands group defaults scope s.context s.builder
  diagnostics : s.diagnostics = []
  errors : s.errors = 0

/-- A unit of the shape asks for a command that is granted and leads to the next scope. -/
def Steps (scope : Scope) (u : UnitShape) (scope' : Scope) : Prop :=
  ∀ s : Session Registry, Stands group defaults scope s.context s.builder →
    ∃ command s', Asks s.context u command ∧
      s.execute Registry.builder command = (.ok (), s') ∧
      Stands group defaults scope' s'.context s'.builder

end

section
variable {group : String} {defaults : Defaults} {scope : Scope} {done : List Compositor}
  {c : Compositor} {t : Technique} {output : Bool} {g : Target} {p : Pass}

theorem steps_close (hopen : scope.innermost ≠ .none) :
    Steps group defaults scope ⟨.closeBrace, []⟩ scope.close := by
  intro s h
  rw [← h.innermost] at hopen
  exact ⟨.close, _, asks_close hopen, rfl, h.close⟩

theorem steps_compositor {name : String} (hfresh : ∀ c ∈ done, c.name ≠ name) :
    Steps group defaults (.script done) ⟨.compositor, [.label name]⟩
      (.compositor done ⟨name, group, []⟩) := by
  intro s h
  obtain ⟨handle, r', hcreate, hstands⟩ := h.createCompositor hfresh
  rw [← h.group] at hcreate
  obtain ⟨journal, hexecute⟩ :=
    Session.opening_createCompositor (b := Registry.builder)
      (fun c handle => c.openCompositor handle name) hcreate
  exact ⟨.openCompositor name, _, asks_compositor h.innermost name, hexecute, hstands⟩

theorem steps_technique :
    Steps group defaults (.compositor done c) ⟨.technique, []⟩
      (.technique done c (.new defaults)) := by
  intro s h
  obtain ⟨handle, hhandle, _⟩ := h.handles .compositor _ rfl
  obtain ⟨child, r', hcreate, hstands⟩ := h.createTechnique hhandle
  obtain ⟨journal, hexecute⟩ :=
    Session.opening_createChild (b := Registry.builder) Context.openTechnique hcreate
  exact ⟨.openTechnique handle, _, asks_technique h.innermost hhandle, hexecute, hstands⟩

theorem steps_texture {text : TextureText}
    (hfresh : ∀ texture ∈ t.textures, texture.name ≠ text.name) :
    Steps group defaults (.technique done c t) text.unit.shape
      (.technique done c { t with textures := t.textures ++ [text.texture] }) := by
  intro s h
  obtain ⟨handle, hhandle, _⟩ := h.handles .technique _ rfl
  obtain ⟨r', hset, hstands⟩ := h.setTexture hhandle text.texture hfresh
  obtain ⟨journal, hexecute⟩ := Session.execute_set (b := Registry.builder) hset
  exact ⟨_, _, asks_texture h.innermost hhandle text, hexecute, hstands⟩

theorem steps_target (name : String) :
    Steps group defaults (.technique done c t) ⟨.target, [.label name]⟩
      (.target done c t false ((Target.new defaults).set (.outputName name))) := by
  intro s h
  obtain ⟨handle, hhandle, _⟩ := h.handles .technique _ rfl
  obtain ⟨child, r₁, hcreate, hcreated⟩ := h.createTarget hhandle
  obtain ⟨r', hset, hstands⟩ := hcreated.setTarget rfl (.outputName name)
  obtain ⟨journal, hexecute⟩ := Session.opening_createChildWith (b := Registry.builder)
    (fun c handle => c.openTarget handle false) hcreate hset
  exact ⟨.openTarget handle name, _, asks_target h.innermost hhandle name, hexecute, hstands⟩

theorem steps_targetOutput :
    Steps group defaults (.technique done c t) ⟨.targetOutput, []⟩
      (.target done c t true t.output) := by
  intro s h
  obtain ⟨handle, hhandle, _⟩ := h.handles .technique _ rfl
  obtain ⟨child, r', hcreate, hstands⟩ := h.createOutputTarget hhandle
  obtain ⟨journal, hexecute⟩ := Session.opening_createChild (b := Registry.builder)
    (fun c handle => c.openTarget handle true) hcreate
  exact ⟨.openOutputTarget handle, _, asks_targetOutput h.innermost hhandle, hexecute, hstands⟩

theorem steps_pass (type : PassType) :
    Steps group defaults (.target done c t output g) ⟨.pass, [type.keyword.kind]⟩
      (.pass done c t output g ((Pass.new defaults).set (.passType type))) := by
  intro s h
  obtain ⟨handle, hhandle, _⟩ := h.handles .target _ rfl
  obtain ⟨child, r₁, hcreate, hcreated⟩ := h.createPass hhandle
  obtain ⟨r', hset, hstands⟩ := hcreated.setPass rfl (.passType type)
  obtain ⟨journal, hexecute⟩ :=
    Session.opening_createChildWith (b := Registry.builder) Context.openPass hcreate hset
  exact ⟨.openPass handle type, _, asks_pass h.innermost hhandle type, hexecute, hstands⟩

/-- A unit that sets an attribute of the open target, given its handle. -/
theorem steps_setTarget {u : UnitShape} (attr : TargetAttribute)
    (hasks : ∀ (context : Context) (handle : Handle), context.innermost = .target →
      context.outputTarget = output → context.handle? .target = some handle →
      Asks context u (.set handle (.target attr))) :
    Steps group defaults (.target done c t output g) u (.target done c t output (g.set attr)) := by
  intro s h
  obtain ⟨handle, hhandle, _⟩ := h.handles .target _ rfl
  obtain ⟨r', hset, hstands⟩ := h.setTarget hhandle attr
  obtain ⟨journal, hexecute⟩ := Session.execute_set (b := Registry.builder) hset
  exact ⟨_, _, hasks s.context handle h.innermost h.output hhandle, hexecute, hstands⟩

/-- A unit that sets an attribute of the open pass, given its handle. -/
theorem steps_setPass {u : UnitShape} (attr : PassAttribute)
    (hasks : ∀ (context : Context) (handle : Handle), context.innermost = .pass →
      context.handle? .pass = some handle → Asks context u (.set handle (.pass attr))) :
    Steps group defaults (.pass done c t output g p) u
      (.pass done c t output g (p.set attr)) := by
  intro s h
  obtain ⟨handle, hhandle, _⟩ := h.handles .pass _ rfl
  obtain ⟨r', hset, hstands⟩ := h.setPass hhandle attr
  obtain ⟨journal, hexecute⟩ := Session.execute_set (b := Registry.builder) hset
  exact ⟨_, _, hasks s.context handle h.innermost hhandle, hexecute, hstands⟩

end

/-! ## Runs of units -/

/-- The units are dispatched in turn, and none of them ends its statement. -/
inductive Carries {σ : Type} (b : Builder σ) : List (ActionUnit Action) → Session σ →
    Session σ → Prop where
  | nil {s : Session σ} : Carries b [] s s
  | cons {u : ActionUnit Action} {units : List (ActionUnit Action)} {rest : Arguments}
    {s s₁ s' : Session σ}
    (hdispatch : s.dispatch b u.action u.token u.reader = (.ok .continue, rest, s₁))
    (hunits : Carries b units s₁ s') : Carries b (u :: units) s s'

namespace Carries
variable {σ : Type} {b : Builder σ} {s s₁ s' : Session σ} {units more : List (ActionUnit Action)}

theorem append (h : Carries b units s s₁) (hmore : Carries b more s₁ s') :
    Carries b (units ++ more) s s' := by
  induction h with
  | nil => exact hmore
  | cons hdispatch _ ih => exact .cons hdispatch (ih hmore)

theorem split (h : Carries b (units ++ more) s s') :
    ∃ s₁, Carries b units s s₁ ∧ Carries b more s₁ s' := by
  induction units generalizing s with
  | nil => exact ⟨s, .nil, h⟩
  | cons u units ih =>
    cases h with
    | cons hdispatch hunits =>
      obtain ⟨s₁, hfirst, hrest⟩ := ih hunits
      exact ⟨s₁, .cons hdispatch hfirst, hrest⟩

theorem runUnits (h : Carries b units s s') :
    (Session.handler b).runUnits units s = (.ok units.length, s') := by
  induction h with
  | nil => rfl
  | cons hdispatch _ ih =>
    simp only [Handler.runUnits, Session.handler_dispatch, hdispatch, ih, List.length_cons]

end Carries

/-- Units of the shapes are carried out without a report and lead from a scope to another. -/
def Builds (group : String) (defaults : Defaults) (scope : Scope) (units : List UnitShape)
    (scope' : Scope) : Prop :=
  ∀ (cut : List (ActionUnit Action)) (s : Session Registry), cut.map UnitShape.ofUnit = units →
    Shows group defaults scope s →
    ∃ s', Carries Registry.builder cut s s' ∧ Shows group defaults scope' s'

namespace Builds
variable {group : String} {defaults : Defaults} {scope between scope' : Scope}
  {units more : List UnitShape}

theorem nil : Builds group defaults scope [] scope := by
  intro cut s hcut h
  rw [List.map_eq_nil_iff.mp hcut]
  exact ⟨s, .nil, h⟩

theorem unit {u : UnitShape} (h : Steps group defaults scope u scope') :
    Builds group defaults scope [u] scope' := by
  intro cut s hcut hshows
  obtain ⟨v, rest, rfl, hv, hrest⟩ := List.map_eq_cons_iff.mp hcut
  rw [List.map_eq_nil_iff.mp hrest]
  subst hv
  obtain ⟨command, s', hasks, hexecute, hstands⟩ := h s hshows.stands
  obtain ⟨left, hread, _⟩ := hasks v.token v.reader rfl
  have hdispatch : s.dispatch Registry.builder v.action v.token v.reader =
      (.ok .continue, left, s') := by
    have hskip : ¬ 0 < s.context.skipDepth := by
      rw [hshows.stands.skipDepth]
      omega
    unfold Session.dispatch
    rw [if_neg hskip, show (Command.read s.context v.token v.action).run v.reader =
      (.ok command, left) from hread]
    simp only [hexecute]
  obtain ⟨_, s₁, hrequested, rfl⟩ := Session.execute_ok hexecute
  exact ⟨_, .cons hdispatch .nil, hstands, hrequested.diagnostics.trans hshows.diagnostics,
    hrequested.errors.trans hshows.errors⟩

theorem append (h : Builds group defaults scope units between)
    (hmore : Builds group defaults between more scope') :
    Builds group defaults scope (units ++ more) scope' := by
  intro cut s hcut hshows
  obtain ⟨first, rest, rfl, hfirst, hrest⟩ := List.map_eq_append_iff.mp hcut
  obtain ⟨s₁, hcarries, hbetween⟩ := h first s hfirst hshows
  obtain ⟨s', hcarries', hshows'⟩ := hmore rest s₁ hrest hbetween
  exact ⟨s', hcarries.append hcarries', hshows'⟩

/-- Items that each change an open object change it in turn. -/
theorem foldl {α β : Type} (scope : β → Scope) {units : α → List UnitShape} {change : β → α → β}
    {items : List α} (h : ∀ item ∈ items, ∀ object, Builds group defaults (scope object)
      (units item) (scope (change object item))) (object : β) :
    Builds group defaults (scope object) (items.flatMap units)
      (scope (items.foldl change object)) := by
  induction items generalizing object with
  | nil => exact .nil
  | cons item items ih =>
    rw [List.forall_mem_cons] at h
    exact (h.1 object).append (ih h.2 (change object item))

end Builds

/-! ## Described objects -/

/-- The units of some statements. -/
def unitsOf (statements : List StatementText) : List UnitShape :=
  statements.flatMap StatementText.shapes

section
variable {group : String} {defaults : Defaults} {done : List Compositor} {c : Compositor}
  {t : Technique} {output : Bool} {g : Target} {p : Pass}

/-- A block: a unit that opens it, what stands in it and the brace that closes it. -/
theorem builds_block {scope inside inside' : Scope} {opener : UnitText}
    {statements : List StatementText} (hopener : Steps group defaults scope opener.shape inside)
    (hinside : Builds group defaults inside (unitsOf statements) inside')
    (hopen : inside'.innermost ≠ .none) :
    Builds group defaults scope (unitsOf (.opener opener :: (statements ++ [.closer])))
      inside'.close := by
  have hunits : unitsOf (.opener opener :: (statements ++ [.closer])) =
      [opener.shape] ++ (unitsOf statements ++ [⟨.closeBrace, []⟩]) := by
    simp [unitsOf, StatementText.shapes]
  rw [hunits]
  exact (Builds.unit hopener).append (hinside.append (.unit (steps_close hopen)))

/-- Options of an open pass set its attributes in order. -/
theorem builds_options {α : Type} {unit : α → UnitText} {attr : α → PassAttribute}
    (h : ∀ (o : α) (context : Context) (handle : Handle), context.innermost = .pass →
      context.handle? .pass = some handle →
      Asks context (unit o).shape (.set handle (.pass (attr o)))) (options : List α) :
    Builds group defaults (.pass done c t output g p) ((options.map unit).map UnitText.shape)
      (.pass done c t output g ((options.map attr).foldl Pass.set p)) := by
  have hunits : (options.map unit).map UnitText.shape =
      options.flatMap fun o => [(unit o).shape] := by
    rw [List.map_map, List.map_eq_flatMap]
    rfl
  rw [hunits, List.foldl_map]
  exact Builds.foldl (fun p => Scope.pass done c t output g p)
    (fun o _ _ => .unit (steps_setPass (attr o) (h o))) p

theorem builds_passItem (item : PassItem) :
    Builds group defaults (.pass done c t output g p) item.statement.shapes
      (.pass done c t output g (item.attrs.foldl Pass.set p)) := by
  cases item with
  | option o =>
    exact .unit (steps_setPass o.attr fun _ _ hin hhandle => asks_passOption hin hhandle o)
  | clear options =>
    exact builds_options (fun o _ _ hin hhandle => asks_clearOption hin hhandle o) options
  | stencil options =>
    exact builds_options (fun o _ _ hin hhandle => asks_stencilOption hin hhandle o) options

theorem builds_pass (text : PassText) :
    Builds group defaults (.target done c t output g) (unitsOf text.statements)
      (.target done c t output (g.adding (text.pass defaults))) := by
  have hitems : ∀ p, Builds group defaults (.pass done c t output g p)
      (unitsOf (text.items.map PassItem.statement))
      (.pass done c t output g ((text.items.flatMap PassItem.attrs).foldl Pass.set p)) := by
    intro p
    rw [unitsOf, List.flatMap_map, List.foldl_flatMap]
    exact Builds.foldl (fun p => Scope.pass done c t output g p)
      (fun item _ _ => builds_passItem item) p
  rw [← PassText.foldl_set]
  exact builds_block (steps_pass text.type) (hitems _) (by simp [Scope.innermost])

theorem builds_targetItem (item : TargetItem) :
    Builds group defaults (.target done c t output g) (unitsOf item.statements)
      (.target done c t output (item.apply defaults g)) := by
  cases item with
  | input mode =>
    exact .unit (steps_setTarget (.inputMode mode) fun _ _ hin _ hhandle =>
      asks_inputMode hin hhandle mode)
  | pass text => exact builds_pass text

theorem builds_namedTargetItem (item : NamedTargetItem) :
    Builds group defaults (.target done c t false g) (unitsOf item.statements)
      (.target done c t false (item.apply defaults g)) := by
  cases item with
  | item item => exact builds_targetItem item
  | option o =>
    exact .unit (steps_setTarget o.attr fun _ _ hin houtput hhandle =>
      asks_targetOption hin hhandle houtput o)

/-- An item of a technique, whose textures have other names than the item if it is one. -/
theorem builds_techniqueItem (item : TechniqueItem)
    (hfresh : ∀ text ∈ item.texture?, text.name ∉ t.textures.map (·.name)) :
    Builds group defaults (.technique done c t) (unitsOf item.statements)
      (.technique done c (item.apply defaults t)) := by
  cases item with
  | texture text =>
    refine .unit (steps_texture fun texture htexture heq => ?_)
    exact hfresh text rfl (List.mem_map.mpr ⟨texture, htexture, heq⟩)
  | target name items =>
    have hitems : ∀ g, Builds group defaults (.target done c t false g)
        (unitsOf (items.flatMap NamedTargetItem.statements))
        (.target done c t false (items.foldl (NamedTargetItem.apply defaults) g)) := by
      intro g
      rw [unitsOf, List.flatMap_assoc]
      exact Builds.foldl (fun g => Scope.target done c t false g)
        (fun item _ _ => builds_namedTargetItem item) g
    exact builds_block (steps_target name) (hitems _) (by simp [Scope.innermost])
  | output items =>
    have hitems : ∀ g, Builds group defaults (.target done c t true g)
        (unitsOf (items.flatMap TargetItem.statements))
        (.target done c t true (items.foldl (TargetItem.apply defaults) g)) := by
      intro g
      rw [unitsOf, List.flatMap_assoc]
      exact Builds.foldl (fun g => Scope.target done c t true g)
        (fun item _ _ => builds_targetItem item) g
    exact builds_block steps_targetOutput (hitems _) (by simp [Scope.innermost])

/-- The names of the textures after an item. -/
theorem textures_apply (item : TechniqueItem) (t : Technique) :
    (item.apply defaults t).textures.map (·.name) =
      t.textures.map (·.name) ++ item.texture?.toList.map (·.name) := by
  cases item <;> simp [TechniqueItem.apply, TechniqueItem.texture?, TextureText.texture]

/-- Items of a technique whose textures differ in name, also from those that are there. -/
theorem builds_techniqueItems {items : List TechniqueItem}
    (hnames : (t.textures.map (·.name) ++
      (items.filterMap TechniqueItem.texture?).map (·.name)).Nodup) :
    Builds group defaults (.technique done c t)
      (unitsOf (items.flatMap TechniqueItem.statements))
      (.technique done c (items.foldl (TechniqueItem.apply defaults) t)) := by
  -- the textures of the items before are those of the technique so far, so that the names that
  -- must differ stay the same list through the induction
  induction items generalizing t with
  | nil => exact .nil
  | cons item items ih =>
    have hcons : (item :: items).filterMap TechniqueItem.texture? =
        item.texture?.toList ++ items.filterMap TechniqueItem.texture? := by
      rw [List.filterMap_cons]
      cases item.texture? <;> rfl
    rw [hcons, List.map_append, ← List.append_assoc] at hnames
    have hitem : Builds group defaults (.technique done c t) (unitsOf item.statements)
        (.technique done c (item.apply defaults t)) := by
      apply builds_techniqueItem
      intro text htext hmem
      have hfirst := (List.nodup_append.mp hnames).1
      have hname : text.name ∈ item.texture?.toList.map (·.name) :=
        List.mem_map_of_mem (Option.mem_toList.mpr htext)
      exact (List.nodup_append.mp hfirst).2.2 text.name hmem text.name hname rfl
    have hitems : Builds group defaults (.technique done c (item.apply defaults t))
        (unitsOf (items.flatMap TechniqueItem.statements))
        (.technique done c (items.foldl (TechniqueItem.apply defaults) (item.apply defaults t))) :=
      ih (by rwa [textures_apply])
    have hunits : unitsOf ((item :: items).flatMap TechniqueItem.statements) =
        unitsOf item.statements ++ unitsOf (items.flatMap TechniqueItem.statements) := by
      simp [unitsOf]
    rw [hunits]
    exact hitem.append hitems

theorem builds_technique (text : TechniqueText) (hnames : text.textureNames.Nodup) :
    Builds group defaults (.compositor done c) (unitsOf text.statements)
      (.compositor done (c.adding (text.technique defaults))) := by
  have hitems : Builds group defaults (.technique done c (.new defaults))
      (unitsOf (text.items.flatMap TechniqueItem.statements))
      (.technique done c (text.technique defaults)) := by
    rw [← TechniqueText.foldl_apply]
    exact builds_techniqueItems (by simpa [Technique.new, TechniqueText.textureNames] using hnames)
  exact builds_block steps_technique hitems (by simp [Scope.innermost])

/-- A compositor is built by adding its techniques. -/
theorem foldl_adding (techniques : List TechniqueText) (c : Compositor) :
    techniques.foldl (fun c text => c.adding (text.technique defaults)) c =
      { c with techniques := c.techniques ++ techniques.map (·.technique defaults) } := by
  induction techniques generalizing c with
  | nil => simp
  | cons text techniques ih =>
    rw [List.foldl_cons, ih]
    simp [Compositor.adding]

theorem builds_compositor (quoted : String → Bool) (text : CompositorText)
    (hfresh : ∀ c ∈ done, c.name ≠ text.name)
    (hnames : ∀ technique ∈ text.techniques, technique.textureNames.Nodup) :
    Builds group defaults (.script done) (unitsOf (text.statements quoted))
      (.script (done ++ [text.compositor group defaults])) := by
  have htechniques : Builds group defaults (.compositor done ⟨text.name, group, []⟩)
      (unitsOf (text.techniques.flatMap TechniqueText.statements))
      (.compositor done (text.compositor group defaults)) := by
    have hfoldl : text.compositor group defaults = text.techniques.foldl
        (fun c text => c.adding (text.technique defaults)) ⟨text.name, group, []⟩ := by
      rw [foldl_adding]
      rfl
    rw [hfoldl, unitsOf, List.flatMap_assoc]
    exact Builds.foldl (fun c => Scope.compositor done c)
      (fun technique htechnique c => builds_technique technique (hnames technique htechnique)) _
  have hunits : unitsOf (text.statements quoted) = [⟨.compositor, [.label text.name]⟩] ++
      (unitsOf (text.techniques.flatMap TechniqueText.statements) ++ [⟨.closeBrace, []⟩]) := by
    simp [unitsOf, CompositorText.statements, StatementText.shapes]
  rw [hunits]
  exact (Builds.unit (steps_compositor hfresh)).append
    (htechniques.append (.unit (steps_close (by simp [Scope.innermost]))))

/-- Compositors whose names differ, also from those that are there. -/
theorem builds_script (quoted : String → Bool) {described : List CompositorText}
    (hnodup : (described.map (·.name)).Nodup)
    (hfresh : ∀ text ∈ described, ∀ c ∈ done, c.name ≠ text.name)
    (hnames : ∀ text ∈ described, ∀ technique ∈ text.techniques, technique.textureNames.Nodup) :
    Builds group defaults (.script done) (unitsOf (scriptStatements quoted described))
      (.script (done ++ described.map (·.compositor group defaults))) := by
  induction described generalizing done with
  | nil =>
    rw [List.map_nil, List.append_nil]
    exact .nil
  | cons text described ih =>
    rw [List.map_cons, List.nodup_cons] at hnodup
    rw [List.forall_mem_cons] at hfresh hnames
    -- the first compositor is done when the others are built, so they must not have its name
    have hmore : ∀ other ∈ described, ∀ c ∈ done ++ [text.compositor group defaults],
        c.name ≠ other.name := by
      intro other hother c hc
      rcases List.mem_append.mp hc with hc | hc
      · exact hfresh.2 other hother c hc
      · rw [List.mem_singleton.mp hc]
        intro heq
        exact hnodup.1 (List.mem_map.mpr ⟨other, hother, heq.symm⟩)
    have hrest := ih hnodup.2 hmore hnames.2
    have hunits : unitsOf (scriptStatements quoted (text :: described)) =
        unitsOf (text.statements quoted) ++ unitsOf (scriptStatements quoted described) := by
      simp [unitsOf, scriptStatements]
    rw [hunits, List.map_cons]
    rw [List.append_assoc] at hrest
    exact (builds_compositor quoted text hfresh.1 hnames.1).append hrest

end

end Compositing.Script
