import Compositing.Script.Command

/-! # What a unit is read to

    A unit that is read to a command stands where its action may stand, and
    the command is about the object of that section.  `Admits` says this for
    each action; `admits_of_read` is all that the proofs about sessions need
    to know of `Command.read`. -/

namespace Compositing.Script

/-! ## Reading in steps -/

namespace Reading
variable {α β : Type}

/-- A reading in two steps, run on some arguments. -/
theorem run_bind (first : Reading α) (next : α → Reading β) (arguments : Arguments) :
    (first >>= next).run arguments =
      match first.run arguments with
      | (.ok value, rest) => (next value).run rest
      | (.error failure, rest) => (.error failure, rest) := by
  have h : (first >>= next).run arguments =
      ExceptT.bindCont next (first.run arguments).1 (first.run arguments).2 := rfl
  rw [h]
  rcases first.run arguments with ⟨_ | _, rest⟩ <;> rfl

/-- If a reading in two steps succeeds, both steps do. -/
theorem ok_of_bind {first : Reading α} {next : α → Reading β} {arguments rest : Arguments}
    {result : β} (h : (first >>= next).run arguments = (.ok result, rest)) :
    ∃ value between, first.run arguments = (.ok value, between) ∧
      (next value).run between = (.ok result, rest) := by
  rw [run_bind] at h
  rcases hf : first.run arguments with ⟨failure | value, between⟩
  · rw [hf] at h
    exact absurd (congrArg Prod.fst h) (by simp)
  · rw [hf] at h
    exact ⟨value, between, rfl, h⟩

/-- If a reading in two steps fails, one of the steps does. -/
theorem error_of_bind {first : Reading α} {next : α → Reading β} {arguments rest : Arguments}
    {failure : Failure} (h : (first >>= next).run arguments = (.error failure, rest)) :
    first.run arguments = (.error failure, rest) ∨
      ∃ value between, first.run arguments = (.ok value, between) ∧
        (next value).run between = (.error failure, rest) := by
  rw [run_bind] at h
  rcases hf : first.run arguments with ⟨failure' | value, between⟩
  · rw [hf] at h
    cases h
    exact .inl rfl
  · rw [hf] at h
    exact .inr ⟨value, between, rfl, h⟩

/-- A reading that ends in a value of a known form. -/
theorem ok_of_pure {value result : α} {arguments rest : Arguments}
    (h : (pure value : Reading α).run arguments = (.ok result, rest)) :
    result = value ∧ rest = arguments := by
  have h : ((Except.ok value : Except Failure α), arguments) = (.ok result, rest) := h
  cases h
  exact ⟨rfl, rfl⟩

/-- A reading that gives up has no value. -/
theorem not_ok_of_throw {failure : Failure} {arguments rest : Arguments} {result : α}
    (h : (throw failure : Reading α).run arguments = (.ok result, rest)) : False := by
  have h : ((Except.error failure : Except Failure α), arguments) = (.ok result, rest) := h
  cases h

/-! ## Failing -/

/-- Every failure of the reading has a property. -/
def Raises (P : Failure → Prop) (reading : Reading α) : Prop :=
  ∀ arguments failure rest, reading.run arguments = (.error failure, rest) → P failure

section
variable {P : Failure → Prop}

theorem raises_pure (value : α) : Raises P (pure value : Reading α) := by
  intro arguments failure rest h
  have h : ((Except.ok value : Except Failure α), arguments) = (.error failure, rest) := h
  cases h

theorem raises_throw {failure : Failure} (h : P failure) :
    Raises P (throw failure : Reading α) := by
  intro arguments failure' rest h'
  have h' : ((Except.error failure : Except Failure α), arguments) = (.error failure', rest) := h'
  cases h'
  exact h

/-- The second of two steps is only taken after the first succeeded. -/
theorem raises_bind_of_ok {first : Reading α} {next : α → Reading β} (hfirst : Raises P first)
    (hnext : ∀ value arguments rest, first.run arguments = (.ok value, rest) →
      Raises P (next value)) : Raises P (first >>= next) := by
  intro arguments failure rest h
  rcases error_of_bind h with hf | ⟨value, between, hok, hn⟩
  · exact hfirst _ _ _ hf
  · exact hnext value _ _ hok _ _ _ hn

theorem raises_bind {first : Reading α} {next : α → Reading β} (hfirst : Raises P first)
    (hnext : ∀ value, Raises P (next value)) : Raises P (first >>= next) :=
  raises_bind_of_ok hfirst fun value _ _ _ => hnext value

theorem raises_ofArguments {read : Arguments → Except ArgumentError (α × Arguments)}
    (h : ∀ error, P (.refused (.argument error))) : Raises P (ofArguments read) := by
  intro arguments failure rest hread
  have hread : ofArguments read arguments = (.error failure, rest) := hread
  unfold ofArguments at hread
  split at hread
  · cases hread
  · cases hread
    exact h _

/-- A read of a keyword that stands for a value fails for want of an argument or because the
    language is at odds with its actions. -/
theorem raises_valueOf {role : Keyword.Role} {value? : Keyword → Option α} {line : Nat}
    (hargument : ∀ error, P (.refused (.argument error)))
    (hkeyword : ∀ id, P (.inconsistent ⟨line, .notKeyword id⟩))
    (hrole : ∀ keyword, P (.inconsistent ⟨line, .wrongRole keyword role⟩)) :
    Raises P (valueOf role value? line) := by
  refine raises_bind (raises_bind (raises_ofArguments hargument) fun id => ?_) fun keyword => ?_
  · split
    · exact raises_pure _
    · exact raises_throw (hkeyword _)
  · split
    · exact raises_pure _
    · exact raises_throw (hrole _)

end
end Reading

/-! ## Places -/

section
variable {context : Context} {token : Token} {within : Section} {arguments rest : Arguments}

theorem innermost_of_requireIn
    (h : (requireIn context token within).run arguments = (.ok (), rest)) :
    context.innermost = within := by
  unfold requireIn at h
  split at h
  · assumption
  · exact (Reading.not_ok_of_throw h).elim

theorem handle_of_handleOf {handle : Handle}
    (h : (handleOf context token within).run arguments = (.ok handle, rest)) :
    context.handle? within = some handle := by
  unfold handleOf Context.handle at h
  cases hh : context.handle? within with
  | none =>
    rw [hh] at h
    exact (Reading.not_ok_of_throw h).elim
  | some found =>
    rw [hh] at h
    rw [(Reading.ok_of_pure h).1]

/-- An object that is found is that of the section, which is the innermost. -/
theorem place_of_objectOf {handle : Handle}
    (h : (objectOf context token within).run arguments = (.ok handle, rest)) :
    context.innermost = within ∧ context.handle? within = some handle := by
  obtain ⟨_, _, hin, hof⟩ := Reading.ok_of_bind h
  exact ⟨innermost_of_requireIn hin, handle_of_handleOf hof⟩

/-- The command for an attribute of the open pass. -/
theorem set_of_setPass {attr : PassAttribute} {command : Command}
    (h : (setPass context token attr).run arguments = (.ok command, rest)) :
    context.innermost = .pass ∧
      ∃ pass, context.handle? .pass = some pass ∧ command = .set pass (.pass attr) := by
  obtain ⟨pass, _, hobject, hpure⟩ := Reading.ok_of_bind h
  obtain ⟨hin, hhandle⟩ := place_of_objectOf hobject
  exact ⟨hin, pass, hhandle, (Reading.ok_of_pure hpure).1⟩

/-- The command for an attribute of the open target; an output target takes an input mode only. -/
theorem set_of_setTarget {attr : TargetAttribute} {command : Command}
    (h : (setTarget context token attr).run arguments = (.ok command, rest)) :
    context.innermost = .target ∧
      ∃ target, context.handle? .target = some target ∧
        (context.outputTarget = true → ∃ mode, attr = .inputMode mode) ∧
        command = .set target (.target attr) := by
  obtain ⟨_, _, hrequire, h⟩ := Reading.ok_of_bind h
  have hin := innermost_of_requireIn hrequire
  split at h
  · obtain ⟨target, _, hhandle, hpure⟩ := Reading.ok_of_bind h
    exact ⟨hin, target, handle_of_handleOf hhandle, fun _ => ⟨_, rfl⟩,
      (Reading.ok_of_pure hpure).1⟩
  · obtain ⟨target, _, hhandle, hpure⟩ := Reading.ok_of_bind h
    refine ⟨hin, target, handle_of_handleOf hhandle, fun hout => ?_,
      (Reading.ok_of_pure hpure).1⟩
    -- the context is that of a named target here
    simp_all
  · exact (Reading.not_ok_of_throw h).elim

/-- A command for an attribute of the open pass. -/
theorem admits_of_setPass {attr : PassAttribute} {command : Command}
    (h : (setPass context token attr).run arguments = (.ok command, rest)) :
    context.innermost = .pass ∧
      ∃ pass attr, context.handle? .pass = some pass ∧ command = .set pass (.pass attr) := by
  obtain ⟨hin, pass, hhandle, hcommand⟩ := set_of_setPass h
  exact ⟨hin, pass, attr, hhandle, hcommand⟩

/-- A command for an attribute of the open target. -/
theorem admits_of_setTarget {attr : TargetAttribute} {command : Command}
    (h : (setTarget context token attr).run arguments = (.ok command, rest)) :
    context.innermost = .target ∧
      ∃ target attr, context.handle? .target = some target ∧
        (context.outputTarget = true → ∃ mode, attr = .inputMode mode) ∧
        command = .set target (.target attr) := by
  obtain ⟨hin, target, hhandle, houtput, hcommand⟩ := set_of_setTarget h
  exact ⟨hin, target, attr, hhandle, houtput, hcommand⟩

end

/-! ## Units -/

/-- What a unit of an action may be read to in a context. -/
def Admits (context : Context) : Action → Command → Prop
  | .closeBrace, command => context.innermost ≠ .none ∧ command = .close
  | .compositor, command =>
    context.innermost = .none ∧ ∃ name, command = .openCompositor name
  | .technique, command =>
    context.innermost = .compositor ∧
      ∃ parent, context.handle? .compositor = some parent ∧ command = .openTechnique parent
  | .target, command =>
    context.innermost = .technique ∧
      ∃ parent output, context.handle? .technique = some parent ∧
        command = .openTarget parent output
  | .targetOutput, command =>
    context.innermost = .technique ∧
      ∃ parent, context.handle? .technique = some parent ∧ command = .openOutputTarget parent
  | .pass, command =>
    context.innermost = .target ∧
      ∃ parent type, context.handle? .target = some parent ∧ command = .openPass parent type
  | .texture, command =>
    context.innermost = .technique ∧
      ∃ technique texture, context.handle? .technique = some technique ∧
        command = .set technique (.texture texture)
  | _, command =>
    (context.innermost = .target ∧
      ∃ target attr, context.handle? .target = some target ∧
        (context.outputTarget = true → ∃ mode, attr = .inputMode mode) ∧
        command = .set target (.target attr)) ∨
    (context.innermost = .pass ∧
      ∃ pass attr, context.handle? .pass = some pass ∧ command = .set pass (.pass attr))

section
variable {context : Context} {token : Token} {arguments rest : Arguments} {command : Command}

/-- A unit that is read to a command stands where its action may stand. -/
theorem admits_of_read {action : Action}
    (h : (Command.read context token action).run arguments = (.ok command, rest)) :
    Admits context action command := by
  -- the reading is taken apart bind by bind; where the unit stands is said by the first part,
  -- which is the object it is for, or by the last one, which sets its value
  cases action with
  | closeBrace =>
    by_cases hin : context.innermost = .none
    · simp only [Command.read, hin, if_true] at h
      exact (Reading.not_ok_of_throw h).elim
    · simp only [Command.read, hin, if_false] at h
      exact ⟨hin, (Reading.ok_of_pure h).1⟩
  | compositor =>
    obtain ⟨_, _, hrequire, h⟩ := Reading.ok_of_bind h
    obtain ⟨name, _, _, hpure⟩ := Reading.ok_of_bind h
    exact ⟨innermost_of_requireIn hrequire, name, (Reading.ok_of_pure hpure).1⟩
  | technique =>
    obtain ⟨parent, _, hobject, hpure⟩ := Reading.ok_of_bind h
    obtain ⟨hin, hhandle⟩ := place_of_objectOf hobject
    exact ⟨hin, parent, hhandle, (Reading.ok_of_pure hpure).1⟩
  | target =>
    obtain ⟨parent, _, hobject, h⟩ := Reading.ok_of_bind h
    obtain ⟨hin, hhandle⟩ := place_of_objectOf hobject
    obtain ⟨output, _, _, hpure⟩ := Reading.ok_of_bind h
    exact ⟨hin, parent, output, hhandle, (Reading.ok_of_pure hpure).1⟩
  | targetOutput =>
    obtain ⟨parent, _, hobject, hpure⟩ := Reading.ok_of_bind h
    obtain ⟨hin, hhandle⟩ := place_of_objectOf hobject
    exact ⟨hin, parent, hhandle, (Reading.ok_of_pure hpure).1⟩
  | pass =>
    obtain ⟨parent, _, hobject, h⟩ := Reading.ok_of_bind h
    obtain ⟨hin, hhandle⟩ := place_of_objectOf hobject
    obtain ⟨type, _, _, hpure⟩ := Reading.ok_of_bind h
    exact ⟨hin, parent, type, hhandle, (Reading.ok_of_pure hpure).1⟩
  | texture =>
    obtain ⟨technique, _, hobject, h⟩ := Reading.ok_of_bind h
    obtain ⟨hin, hhandle⟩ := place_of_objectOf hobject
    obtain ⟨name, _, _, h⟩ := Reading.ok_of_bind h
    obtain ⟨width, _, _, h⟩ := Reading.ok_of_bind h
    obtain ⟨height, _, _, h⟩ := Reading.ok_of_bind h
    obtain ⟨format, _, _, hpure⟩ := Reading.ok_of_bind h
    exact ⟨hin, technique, _, hhandle, (Reading.ok_of_pure hpure).1⟩
  | input =>
    simp only [Command.read, readInput] at h
    split at h
    · obtain ⟨_, _, _, h⟩ := Reading.ok_of_bind h
      exact .inl (admits_of_setTarget h)
    · obtain ⟨_, _, _, h⟩ := Reading.ok_of_bind h
      obtain ⟨_, _, _, h⟩ := Reading.ok_of_bind h
      exact .inr (admits_of_setPass h)
    · exact (Reading.not_ok_of_throw h).elim
  | onlyInitial | visibilityMask | lodBias | materialScheme =>
    obtain ⟨_, _, _, h⟩ := Reading.ok_of_bind h
    exact .inl (admits_of_setTarget h)
  | buffers =>
    obtain ⟨_, _, _, h⟩ := Reading.ok_of_bind h
    obtain ⟨_, _, _, h⟩ := Reading.ok_of_bind h
    exact .inr (admits_of_setPass h)
  | _ =>
    obtain ⟨_, _, _, h⟩ := Reading.ok_of_bind h
    exact .inr (admits_of_setPass h)

/-- Where no block is open a compositor is read for the label that comes first. -/
theorem read_compositor_iff {name : String} (hin : context.innermost = .none) :
    (∃ rest, (Command.read context token .compositor).run arguments =
      (.ok (.openCompositor name), rest)) ↔
    arguments.tokens.head?.map (·.kind) = some (.label name) := by
  have hread : (Command.read context token .compositor).run arguments =
      match arguments.nextLabel with
      | .ok (name, rest) => (.ok (.openCompositor name), rest)
      | .error error => (.error (.refused (.argument error)), arguments) := by
    simp only [Command.read, requireIn, hin, if_true]
    obtain ⟨_ | ⟨⟨_ | _ | _, _, _⟩, _⟩, _⟩ := arguments <;> rfl
  rw [hread]
  constructor
  · rintro ⟨rest, hlabel⟩
    obtain ⟨_ | ⟨⟨_ | _ | _, _, _⟩, _⟩, _⟩ := arguments <;> cases hlabel
    rfl
  · intro hlabel
    obtain ⟨_ | ⟨⟨_ | _ | _, _, _⟩, _⟩, _⟩ := arguments <;> cases hlabel
    exact ⟨_, rfl⟩

/-! ## Failures -/

/-- The failures a unit other than a closing brace may have in a context: it is misplaced
    there, an argument is wrong, the innermost block has no handle, or the language is at odds
    with its actions. -/
def Arises (context : Context) (token : Token) : Failure → Prop
  | .refused (.misplaced keyword within output) =>
    keyword = Keyword.ofId? token.id ∧ within = context.innermost ∧
      output = context.outputTarget
  | .inconsistent ⟨_, .noHandle within⟩ =>
    within = context.innermost ∧ within ≠ .none ∧ context.handle? within = none
  | .refused (.argument _) | .inconsistent _ => True
  | .refused .strayBrace | .refused (.builder _) => False

open Reading

theorem raises_requireIn {within : Section} :
    Raises (Arises context token) (requireIn context token within) := by
  unfold requireIn
  split
  · exact raises_pure _
  · exact raises_throw ⟨rfl, rfl, rfl⟩

theorem raises_handleOf {within : Section} (hin : context.innermost = within)
    (hwithin : within ≠ .none) : Raises (Arises context token) (handleOf context token within) := by
  unfold handleOf Context.handle
  cases hhandle : context.handle? within with
  | some handle => exact raises_pure handle
  | none => exact raises_throw ⟨hin.symm, hwithin, hhandle⟩

theorem raises_objectOf {within : Section} (hwithin : within ≠ .none) :
    Raises (Arises context token) (objectOf context token within) := by
  refine raises_bind_of_ok raises_requireIn fun _ _ _ hrequire => ?_
  exact raises_handleOf (innermost_of_requireIn hrequire) hwithin

theorem raises_setPass (attr : PassAttribute) :
    Raises (Arises context token) (setPass context token attr) :=
  raises_bind (raises_objectOf (by decide)) fun _ => raises_pure _

theorem raises_setTarget (attr : TargetAttribute) :
    Raises (Arises context token) (setTarget context token attr) := by
  refine raises_bind_of_ok raises_requireIn fun _ _ _ hrequire => ?_
  have hhandle : Raises (Arises context token) (handleOf context token .target) :=
    raises_handleOf (innermost_of_requireIn hrequire) (by decide)
  split
  · exact raises_bind hhandle fun _ => raises_pure _
  · exact raises_bind hhandle fun _ => raises_pure _
  · exact raises_throw ⟨rfl, rfl, rfl⟩

theorem raises_integer32 : Raises (Arises context token) integer32 :=
  raises_bind (raises_ofArguments fun _ => trivial) fun _ => raises_pure _

theorem raises_integer8 : Raises (Arises context token) integer8 :=
  raises_bind (raises_ofArguments fun _ => trivial) fun _ => raises_pure _

theorem raises_single : Raises (Arises context token) single :=
  raises_bind (raises_ofArguments fun _ => trivial) fun _ => raises_pure _

theorem raises_label : Raises (Arises context token) label :=
  raises_ofArguments fun _ => trivial

theorem raises_keywordValue {α : Type} (role : Keyword.Role) (value? : Keyword → Option α)
    (line : Nat) : Raises (Arises context token) (valueOf role value? line) :=
  raises_valueOf (fun _ => trivial) (fun _ => trivial) fun _ => trivial

theorem raises_lift {α : Type} (action : StateM Arguments α) :
    Raises (Arises context token) (action : Reading α) := by
  intro arguments failure rest h
  cases h

theorem raises_lengthOr (keyword : Keyword) :
    Raises (Arises context token) (lengthOr keyword) := by
  refine raises_bind (raises_lift _) fun taken => ?_
  split
  · exact raises_pure _
  · exact raises_integer32

theorem raises_buffers (line count : Nat) :
    Raises (Arises context token) (buffers line count) := by
  induction count with
  | zero => exact raises_pure _
  | succ count ih =>
    exact raises_bind (raises_keywordValue _ _ _) fun _ => raises_bind ih fun _ => raises_pure _

theorem raises_readColour : Raises (Arises context token) readColour :=
  raises_bind raises_single fun _ => raises_bind raises_single fun _ =>
    raises_bind raises_single fun _ => raises_bind raises_single fun _ => raises_pure _

/-- A unit other than a closing brace fails to be read for one of the reasons of `Arises`. -/
theorem arises_of_read {action : Action} (haction : action ≠ .closeBrace) :
    Raises (Arises context token) (Command.read context token action) := by
  cases action with
  | closeBrace => exact absurd rfl haction
  | compositor =>
    exact raises_bind raises_requireIn fun _ => raises_bind raises_label fun _ => raises_pure _
  | technique | targetOutput =>
    exact raises_bind (raises_objectOf (by decide)) fun _ => raises_pure _
  | texture =>
    exact raises_bind (raises_objectOf (by decide)) fun _ => raises_bind raises_label fun _ =>
      raises_bind (raises_lengthOr _) fun _ => raises_bind (raises_lengthOr _) fun _ =>
      raises_bind (raises_keywordValue _ _ _) fun _ => raises_pure _
  | target =>
    exact raises_bind (raises_objectOf (by decide)) fun _ => raises_bind raises_label fun _ =>
      raises_pure _
  | pass =>
    exact raises_bind (raises_objectOf (by decide)) fun _ => raises_bind (raises_keywordValue _ _ _)
      fun _ => raises_pure _
  | input =>
    simp only [Command.read, readInput]
    split
    · exact raises_bind (raises_keywordValue _ _ _) fun _ => raises_setTarget _
    · exact raises_bind raises_integer32 fun _ => raises_bind raises_label fun _ =>
        raises_setPass _
    · exact raises_throw ⟨rfl, rfl, rfl⟩
  | onlyInitial =>
    exact raises_bind (raises_keywordValue _ _ _) fun _ => raises_setTarget _
  | visibilityMask => exact raises_bind raises_integer32 fun _ => raises_setTarget _
  | lodBias => exact raises_bind raises_single fun _ => raises_setTarget _
  | materialScheme => exact raises_bind raises_label fun _ => raises_setTarget _
  | material => exact raises_bind raises_label fun _ => raises_setPass _
  | firstRenderQueue | lastRenderQueue =>
    exact raises_bind raises_integer8 fun _ => raises_setPass _
  | identifier | stencilValue | refValue | mask =>
    exact raises_bind raises_integer32 fun _ => raises_setPass _
  | buffers =>
    exact raises_bind (raises_lift _) fun _ => raises_bind (raises_buffers _ _) fun _ =>
      raises_setPass _
  | colourValue => exact raises_bind raises_readColour fun _ => raises_setPass _
  | depthValue => exact raises_bind raises_single fun _ => raises_setPass _
  | check | twoSided | compFunc | failOp | depthFailOp | passOp =>
    exact raises_bind (raises_keywordValue _ _ _) fun _ => raises_setPass _

end
end Compositing.Script
