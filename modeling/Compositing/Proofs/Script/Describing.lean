import Compositing.Proofs.Script.Description

/-! # Describing by setting

    A builder makes an object with its defaults and then sets attributes and
    adds children, one after the other.  A description says of each field what
    it is in the end.  Setting what is described, in order, comes to the
    described object: of several attributes about a field the last one counts,
    and a field that no attribute is about is still as it was created. -/

namespace Compositing.Script

/-! ## The last value -/

section
variable {α β : Type} {find : α → Option β} {make : β → α} {isAbout : α → Bool}

/-- The first value that is found is that of the first item about it. -/
theorem map_findSome? (h : ∀ a, (find a).map make = if isAbout a then some a else none)
    (items : List α) : (items.findSome? find).map make = items.find? isAbout := by
  induction items with
  | nil => rfl
  | cons a items ih =>
    have ha := h a
    rw [List.findSome?_cons, List.find?_cons]
    cases hfind : find a with
    | none =>
      rw [hfind] at ha
      by_cases habout : isAbout a = true
      · simp [habout] at ha
      · simpa [habout] using ih
    | some b =>
      rw [hfind] at ha
      by_cases habout : isAbout a = true
      · simpa [habout] using ha
      · simp [habout] at ha

/-- The last value or a default is that of the last item about it, or of the default. -/
theorem some_getD_last? (h : ∀ a, (find a).map make = if isAbout a then some a else none)
    (items : List α) (default : β) :
    some (make ((last? find items).getD default)) =
      (items.reverse.find? isAbout).or (some (make default)) := by
  rw [last?, ← map_findSome? h]
  cases items.reverse.findSome? find <;> rfl

end

/-! ## Inputs -/

/-- Each of the slots has its texture, if it has one. -/
theorem lookup_filterMap (texture? : UInt32 → Option String) (slots : List UInt32)
    (slot : UInt32) :
    (slots.filterMap fun s => (texture? s).map (s, ·)).lookup slot =
      if slot ∈ slots then texture? slot else none := by
  induction slots with
  | nil => rfl
  | cons first slots ih =>
    rw [List.filterMap_cons]
    by_cases hsame : slot = first
    · subst hsame
      cases htexture : texture? slot with
      | some texture => simp
      | none => simp [ih, htexture]
    · cases htexture : texture? first with
      | some texture => simp [lookup_input, hsame, ih]
      | none => simp [hsame, ih]

/-- The slots of inputs are some of the slots that textures are looked for. -/
theorem sublist_slots (texture? : UInt32 → Option String) (slots : List UInt32) :
    ((slots.filterMap fun s => (texture? s).map (s, ·)).map (·.1)).Sublist slots := by
  induction slots with
  | nil => exact .slnil
  | cons first slots ih =>
    rw [List.filterMap_cons]
    cases texture? first with
    | none => exact ih.cons first
    | some texture => exact ih.cons_cons first

namespace PassText
variable (p : PassText) (defaults : Defaults)

theorem mem_slots (slot : UInt32) :
    slot ∈ p.slots ↔ ∃ attr ∈ p.attrs, attr.slot? = some slot := by
  rw [slots, (List.perm_insertionSort _ _).mem_iff, List.mem_dedup, List.mem_filterMap]

/-- The slots of a described pass are in ascending order. -/
theorem sorted_slots : p.slots.Pairwise (· < ·) := by
  have : IsTrans UInt32 (· ≤ ·) := ⟨fun _ _ _ => UInt32.le_trans⟩
  have hsorted : p.slots.Pairwise (· ≤ ·) := List.pairwise_insertionSort _ _
  have hnodup : p.slots.Pairwise (· ≠ ·) :=
    (List.perm_insertionSort _ _).nodup_iff.mpr (List.nodup_dedup _)
  exact (hsorted.and hnodup).imp fun h => UInt32.lt_of_le_of_ne h.1 h.2

theorem sorted_inputs : ((p.pass defaults).inputs.map (·.1)).Pairwise (· < ·) :=
  p.sorted_slots.sublist (sublist_slots _ _)

/-- Each slot has the texture that is described for it last. -/
theorem lookup_inputs (slot : UInt32) :
    (p.pass defaults).inputs.lookup slot = last? (·.bound? slot) p.attrs := by
  rw [pass, lookup_filterMap]
  split
  · rfl
  · rename_i hslot
    -- a slot that is not among those described is bound by no attribute
    have hnone : ∀ attr ∈ p.attrs.reverse, attr.bound? slot = none := by
      intro attr hattr
      cases attr with
      | input bound texture =>
        refine if_neg fun hsame => hslot ?_
        rw [mem_slots]
        exact ⟨_, List.mem_reverse.mp hattr, by rw [hsame]; rfl⟩
      | _ => rfl
    exact (List.findSome?_eq_none_iff.mpr hnone).symm

/-! ## Passes -/

/-- No option is about the type of the pass. -/
theorem field_of_mem_attrs {attr : PassAttribute} (h : attr ∈ p.attrs) :
    PassField.passType ≠ attr.field := by
  obtain ⟨item, _, hattr⟩ := List.mem_flatMap.mp h
  cases item with
  | option o =>
    rw [List.mem_singleton.mp hattr]
    cases o <;> simp [PassOption.attr, PassAttribute.field]
  | clear options =>
    obtain ⟨o, _, rfl⟩ := List.mem_map.mp hattr
    cases o <;> simp [ClearOption.attr, PassAttribute.field]
  | stencil options =>
    obtain ⟨o, _, rfl⟩ := List.mem_map.mp hattr
    cases o <;> simp [StencilOption.attr, PassAttribute.field]

/-- A field of the described pass is what is described for it last, or what it is in a new pass of
    the type. -/
theorem attribute?_pass (field : PassField) :
    (p.pass defaults).attribute? field =
      (p.attrs.reverse.find? fun a => field = a.field).or
        (((Pass.new defaults).set (.passType p.type)).attribute? field) := by
  cases field with
  | passType =>
    have hnone : p.attrs.reverse.find? (fun a => PassField.passType = a.field) = none := by
      rw [List.find?_eq_none]
      intro attr hattr
      simpa using field_of_mem_attrs p (List.mem_reverse.mp hattr)
    rw [hnone]
    rfl
  | material =>
    refine (map_findSome? ?_ p.attrs.reverse).trans Option.or_none.symm
    intro attr
    cases attr <;> rfl
  | input slot =>
    show ((p.pass defaults).inputs.lookup slot).map (PassAttribute.input slot) = _
    rw [lookup_inputs]
    refine (map_findSome? ?_ p.attrs.reverse).trans Option.or_none.symm
    intro attr
    cases attr with
    | input bound texture =>
      by_cases hsame : slot = bound
      · simp [PassAttribute.bound?, PassAttribute.field, hsame]
      · simp [PassAttribute.bound?, PassAttribute.field, hsame]
    | _ => rfl
  | _ => exact some_getD_last? (by intro a; cases a <;> rfl) _ _

/-- Setting what is described, in order, makes the described pass. -/
theorem foldl_set :
    p.attrs.foldl Pass.set ((Pass.new defaults).set (.passType p.type)) = p.pass defaults := by
  apply Pass.eq_of_attribute?
  · intro field
    rw [get_foldl_set Pass.attribute?_set, attribute?_pass]
  · exact Pass.sorted_foldl_set _ (by simp [Pass.set, Pass.new])
  · exact sorted_inputs p defaults

end PassText

/-! ## Targets -/

/-- The target with the item added. -/
def TargetItem.apply (defaults : Defaults) (g : Target) : TargetItem → Target
  | input mode => g.set (.inputMode mode)
  | pass p => { g with passes := g.passes ++ [p.pass defaults] }

namespace NamedTargetItem
variable (defaults : Defaults)

/-- The target with the item added. -/
def apply (g : Target) : NamedTargetItem → Target
  | item i => i.apply defaults g
  | option o => g.set o.attr

theorem attribute?_foldl_apply (items : List NamedTargetItem) (g : Target) (field : TargetField) :
    (items.foldl (apply defaults) g).attribute? field =
      ((items.filterMap attr?).reverse.find? fun a => field = a.field).or
        (g.attribute? field) := by
  rw [← get_foldl_set Target.attribute?_set]
  induction items generalizing g with
  | nil => rfl
  | cons item items ih =>
    rw [List.foldl_cons, ih]
    rcases item with (mode | p) | o
    · rfl
    · -- a pass is about no field
      have hskip : (item (.pass p) :: items).filterMap attr? = items.filterMap attr? := rfl
      rw [hskip, get_foldl_set Target.attribute?_set, get_foldl_set Target.attribute?_set]
      cases field <;> rfl
    · rfl

theorem passes_foldl_apply (items : List NamedTargetItem) (g : Target) :
    (items.foldl (apply defaults) g).passes =
      g.passes ++ (items.filterMap pass?).map (·.pass defaults) := by
  induction items generalizing g with
  | nil => simp
  | cons item items ih =>
    rw [List.foldl_cons, ih]
    rcases item with (mode | p) | o
    · rfl
    · exact List.append_assoc _ _ _
    · exact congrArg (· ++ _) (Target.passes_set g o.attr)

/-- No item is about the name of the target. -/
theorem field_of_mem_attrs {items : List NamedTargetItem} {attr : TargetAttribute}
    (h : attr ∈ items.filterMap attr?) : TargetField.outputName ≠ attr.field := by
  obtain ⟨item, _, hattr⟩ := List.mem_filterMap.mp h
  rcases item with (mode | p) | o
  · cases hattr
    simp [TargetAttribute.field]
  · cases hattr
  · cases hattr
    cases o <;> simp [TargetOption.attr, TargetAttribute.field]

/-- Adding the items, in order, to a new target makes the described target. -/
theorem foldl_apply (name : Option String) (items : List NamedTargetItem) :
    items.foldl (apply defaults) { Target.new defaults with outputName := name } =
      target name items defaults := by
  apply Target.eq_of_attribute?
  · intro field
    rw [attribute?_foldl_apply]
    cases field with
    | outputName =>
      have hnone : (items.filterMap attr?).reverse.find?
          (fun a => TargetField.outputName = a.field) = none := by
        rw [List.find?_eq_none]
        intro attr hattr
        simpa using field_of_mem_attrs (List.mem_reverse.mp hattr)
      rw [hnone]
      rfl
    | _ => exact (some_getD_last? (by intro a; cases a <;> rfl) _ _).symm
  · rw [passes_foldl_apply]
    rfl

end NamedTargetItem

/-! ## Techniques -/

namespace TechniqueItem
variable (defaults : Defaults)

/-- The technique with the item added. -/
def apply (t : Technique) : TechniqueItem → Technique
  | texture text => { t with textures := t.textures ++ [text.texture] }
  | target name items =>
    let g := items.foldl (NamedTargetItem.apply defaults)
      ((Target.new defaults).set (.outputName name))
    { t with targets := t.targets ++ [g] }
  | output items => { t with output := items.foldl (TargetItem.apply defaults) t.output }

/-- Adding items adds their textures and targets, and what they say of the output target. -/
theorem foldl_apply (items : List TechniqueItem) (t : Technique) :
    items.foldl (apply defaults) t =
      { textures := t.textures ++ (items.filterMap texture?).map TextureText.texture
        targets := t.targets ++ items.filterMap (target? defaults)
        output := (items.flatMap outputItems).foldl (TargetItem.apply defaults) t.output } := by
  induction items generalizing t with
  | nil => simp
  | cons item items ih =>
    rw [List.foldl_cons, ih]
    cases item with
    | texture text => simp [apply, texture?, target?, outputItems, List.filterMap_cons]
    | target name contents =>
      have hnew : contents.foldl (NamedTargetItem.apply defaults)
          ((Target.new defaults).set (.outputName name)) =
            NamedTargetItem.target (some name) contents defaults :=
        NamedTargetItem.foldl_apply defaults (some name) contents
      simp [apply, texture?, target?, outputItems, List.filterMap_cons, hnew]
    | output contents =>
      simp [apply, texture?, target?, outputItems, List.filterMap_cons, List.foldl_append]

end TechniqueItem

/-- Adding the items, in order, makes the described technique. -/
theorem TechniqueText.foldl_apply (t : TechniqueText) (defaults : Defaults) :
    t.items.foldl (TechniqueItem.apply defaults) (.new defaults) = t.technique defaults := by
  have houtput (items : List TargetItem) :
      items.foldl (TargetItem.apply defaults) (Target.new defaults) =
        NamedTargetItem.target none (items.map .item) defaults := by
    rw [← NamedTargetItem.foldl_apply, List.foldl_map]
    rfl
  rw [TechniqueItem.foldl_apply, Technique.new, houtput, List.nil_append, List.nil_append]
  rfl

end Compositing.Script
