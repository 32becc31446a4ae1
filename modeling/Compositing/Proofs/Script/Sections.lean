import Compositing.Proofs.Script.Values

/-! # Sections

    Each kind of unit belongs in one section.  A unit of the grammar that
    stands where it belongs is read to a command, and one that stands elsewhere
    is refused.  Openers check their place before they read their arguments and
    options check it after, but the arguments of a unit of the grammar are
    never wrong, so that it is the place that decides.

    Only `input` reads its arguments by its place: a mode in a pass is refused
    for its argument, and a slot in a target is not refused at all but ends the
    document. -/

namespace Compositing.Script

/-- The unit may stand directly in the innermost open block. -/
def UnitShape.BelongsIn (u : UnitShape) (c : Context) : Prop :=
  match u.action with
  | .closeBrace => c.innermost ≠ .none
  | .compositor => c.innermost = .none
  | .technique => c.innermost = .compositor
  | .texture | .target | .targetOutput => c.innermost = .technique
  | .input =>
    -- a slot belongs in a pass and a mode in a target
    match u.arguments.head? with
    | some (.number _) => c.innermost = .pass
    | _ => c.innermost = .target
  | .onlyInitial | .visibilityMask | .lodBias | .materialScheme =>
    c.innermost = .target ∧ c.outputTarget = false
  | .pass => c.innermost = .target
  | .material | .firstRenderQueue | .lastRenderQueue | .identifier | .buffers | .colourValue
  | .depthValue | .stencilValue | .check | .compFunc | .refValue | .mask | .failOp
  | .depthFailOp | .passOp | .twoSided => c.innermost = .pass

/-! ## Arguments that are read -/

namespace Reading
variable {α β : Type} {kinds between left : List Token.Kind}

theorem exists_integer32 (kinds : List Token.Kind) (x : Number) :
    ∃ n, Gives (.number x :: kinds) integer32 n kinds :=
  ⟨_, gives_bind (gives_number x) (gives_pure _)⟩

theorem exists_integer8 (kinds : List Token.Kind) (x : Number) :
    ∃ n, Gives (.number x :: kinds) integer8 n kinds :=
  ⟨_, gives_bind (gives_number x) (gives_pure _)⟩

theorem exists_single (kinds : List Token.Kind) (x : Number) :
    ∃ y, Gives (.number x :: kinds) single y kinds :=
  ⟨_, gives_bind (gives_number x) (gives_pure _)⟩

theorem exists_valueOf (role : Keyword.Role) {value? : Keyword → Option α} {k : Keyword}
    (h : (value? k).isSome) (line : Nat) (kinds : List Token.Kind) :
    ∃ value, Gives (k.kind :: kinds) (valueOf role value? line) value kinds := by
  obtain ⟨value, hvalue⟩ := Option.isSome_iff_exists.mp h
  exact ⟨value, gives_valueOf hvalue line⟩

theorem exists_takesValue (role : Keyword.Role) {value? : Keyword → Option α}
    (h : Keyword.TakesValue value? kinds) (line : Nat) :
    ∃ value, Gives kinds (valueOf role value? line) value [] := by
  obtain ⟨k, hk, rfl⟩ := h
  exact exists_valueOf role hk line []

/-- The length of a texture. -/
theorem exists_lengthOr {k : Keyword} {kind : Token.Kind} (h : k.IsLength kind)
    (kinds : List Token.Kind) : ∃ n, Gives (kind :: kinds) (lengthOr k) n kinds := by
  have hk : k.id ≠ Token.numberId := by cases k <;> decide
  rcases h with rfl | ⟨x, rfl⟩
  · exact ⟨_, gives_lengthOr k hk none⟩
  · obtain ⟨n, hnumber⟩ := exists_integer32 kinds x
    refine ⟨n, fun arguments hhave => ?_⟩
    have hpeek : ¬ arguments.peekId? = some k.id := by
      obtain ⟨t, rest, htokens, ht, _⟩ := List.map_eq_cons_iff.mp hhave
      rw [Arguments.peekId?, htokens, List.head?_cons, Option.map_some, Token.id, ht]
      intro heq
      exact hk (Option.some.inj heq).symm
    rw [run_lengthOr, if_neg hpeek]
    exact hnumber arguments hhave

/-- Frame buffers up to the last argument. -/
theorem exists_buffers {ks : List Keyword} (hks : ∀ k ∈ ks, (Keyword.buffer? k).isSome)
    (line : Nat) :
    ∃ found, Gives (ks.map Keyword.kind) (buffers line ks.length) found [] := by
  induction ks with
  | nil => exact ⟨_, gives_pure _⟩
  | cons k ks ih =>
    rw [List.forall_mem_cons] at hks
    obtain ⟨first, hfirst⟩ := exists_valueOf .buffer hks.1 line (ks.map Keyword.kind)
    obtain ⟨others, hothers⟩ := ih hks.2
    exact ⟨_, gives_bind hfirst (gives_bind hothers (gives_pure _))⟩

theorem exists_readColour (r g b a : Number) :
    ∃ colour, Gives [.number r, .number g, .number b, .number a] readColour colour [] := by
  obtain ⟨_, hr⟩ := exists_single [.number g, .number b, .number a] r
  obtain ⟨_, hg⟩ := exists_single [.number b, .number a] g
  obtain ⟨_, hb⟩ := exists_single [.number a] b
  obtain ⟨_, ha⟩ := exists_single [] a
  exact ⟨_, gives_bind hr (gives_bind hg (gives_bind hb (gives_bind ha (gives_pure _))))⟩

/-! ## How a reading ends -/

/-- On arguments of the kinds the reading ends as `Q` says. -/
def Ends (kinds : List Token.Kind) (reading : Reading α) (Q : Except Failure α → Prop) : Prop :=
  ∀ arguments, Arguments.Have kinds arguments → Q (reading.run arguments).1

variable {Q : Except Failure α → Prop}

theorem ends_throw {failure : Failure} (h : Q (.error failure)) :
    Ends kinds (throw failure : Reading α) Q :=
  fun _ _ => h

theorem ends_of_gives {reading : Reading α} {value : α} (hgives : Gives kinds reading value left)
    (h : Q (.ok value)) : Ends kinds reading Q := by
  intro arguments hhave
  obtain ⟨rest, hrun, _⟩ := hgives arguments hhave
  rw [hrun]
  exact h

/-- What is read first does not fail, so that the reading ends as what follows it. -/
theorem ends_bind {first : Reading β} {next : β → Reading α}
    (hfirst : ∃ value, Gives kinds first value between)
    (hnext : ∀ value, Ends between (next value) Q) : Ends kinds (first >>= next) Q := by
  intro arguments hhave
  obtain ⟨value, hgives⟩ := hfirst
  obtain ⟨rest, hrun, hrest⟩ := hgives arguments hhave
  rw [run_bind, hrun]
  exact hnext value rest hrest

end Reading

open Reading

/-! ## Places -/

/-- At its place a unit is read to a command, elsewhere it is refused as misplaced. -/
def Settles (place : Prop) (outcome : Except Failure Command) : Prop :=
  (place → ∃ command, outcome = .ok command) ∧
    (¬ place → ∃ refusal, outcome = .error (.refused refusal) ∧ refusal.kind = .misplaced)

theorem settles_ok {place : Prop} (hplace : place) (command : Command) :
    Settles place (.ok command) :=
  ⟨fun _ => ⟨command, rfl⟩, fun hnot => absurd hplace hnot⟩

theorem settles_refused {place : Prop} (hplace : ¬ place) {refusal : Refusal}
    (hkind : refusal.kind = .misplaced) : Settles place (.error (.refused refusal)) :=
  ⟨fun hhere => absurd hhere hplace, fun _ => ⟨refusal, rfl, hkind⟩⟩

section
variable {context : Context} {token : Token} {kinds : List Token.Kind}

/-- The innermost block has a handle. -/
theorem handle_of_nested (hnested : context.Nested) {within : Section} (hwithin : within ≠ .none)
    (hin : context.innermost = within) : ∃ handle, context.handle? within = some handle := by
  subst hin
  exact exists_handle hnested hwithin

/-- A unit that is about the object of a section, and then reads what it says of it. -/
theorem ends_objectOf (hnested : context.Nested) {within : Section} (hwithin : within ≠ .none)
    {next : Handle → Reading Command} {left : List Token.Kind}
    (hnext : ∀ handle, ∃ command, Gives kinds (next handle) command left) :
    Ends kinds (objectOf context token within >>= next)
      (Settles (context.innermost = within)) := by
  by_cases hin : context.innermost = within
  · obtain ⟨handle, hhandle⟩ := handle_of_nested hnested hwithin hin
    obtain ⟨command, hcommand⟩ := hnext handle
    exact ends_of_gives (gives_bind (gives_objectOf hin hhandle) hcommand)
      (settles_ok hin command)
  · have hthrows : objectOf context token within = (throw (misplaced context token)) := by
      unfold objectOf requireIn
      rw [if_neg hin]
      rfl
    rw [hthrows]
    exact ends_throw (settles_refused hin rfl)

theorem ends_setPass (hnested : context.Nested) (attr : PassAttribute) :
    Ends kinds (setPass context token attr) (Settles (context.innermost = .pass)) :=
  ends_objectOf hnested (by decide) fun _ => ⟨_, gives_pure _⟩

/-- An attribute of a target; an output target takes an input mode only. -/
theorem ends_setTarget (hnested : context.Nested) (attr : TargetAttribute) :
    Ends kinds (setTarget context token attr)
      (Settles (context.innermost = .target ∧
        (context.outputTarget = false ∨ ∃ mode, attr = .inputMode mode))) := by
  by_cases hin : context.innermost = .target
  · obtain ⟨handle, hhandle⟩ := handle_of_nested hnested (by decide) hin
    by_cases hattr : context.outputTarget = false ∨ ∃ mode, attr = .inputMode mode
    · exact ends_of_gives (gives_setTarget hin hhandle hattr) (settles_ok ⟨hin, hattr⟩ _)
    · have houtput : context.outputTarget = true := by
        simpa using fun hfalse => hattr (.inl hfalse)
      have hmode : ∀ mode, attr ≠ .inputMode mode := fun mode heq => hattr (.inr ⟨mode, heq⟩)
      have hthrows : setTarget context token attr = (throw (misplaced context token)) := by
        unfold setTarget requireIn
        rw [if_pos hin, houtput]
        cases attr with
        | inputMode mode => exact absurd rfl (hmode mode)
        | _ => rfl
      rw [hthrows]
      exact ends_throw (settles_refused (fun hplace => hattr hplace.2) rfl)
  · have hthrows : setTarget context token attr = (throw (misplaced context token)) := by
      unfold setTarget requireIn
      rw [if_neg hin]
      rfl
    rw [hthrows]
    exact ends_throw (settles_refused (fun hplace => hin hplace.1) rfl)

/-- An attribute of a target that is no input mode belongs in a named target. -/
theorem ends_setOption (hnested : context.Nested) {attr : TargetAttribute}
    (hattr : ∀ mode, attr ≠ .inputMode mode) :
    Ends kinds (setTarget context token attr)
      (Settles (context.innermost = .target ∧ context.outputTarget = false)) := by
  have hends : Ends kinds (setTarget context token attr) _ := ends_setTarget hnested attr
  simpa only [hattr, exists_false, or_false] using hends

/-! ## Units -/

/-- A unit other than an `input` is read to a command where it belongs, and is misplaced
    elsewhere. -/
theorem ends_read (token : Token) {u : UnitShape} (hnested : context.Nested) (hfits : u.Fits)
    (hinput : u.action ≠ .input) :
    Ends u.arguments (Command.read context token u.action) (Settles (u.BelongsIn context)) := by
  obtain ⟨action, kinds⟩ := u
  unfold UnitShape.Fits at hfits
  simp only at hfits hinput ⊢
  have hpass : ∀ attr, Ends [] (setPass context token attr)
      (Settles (context.innermost = .pass)) := ends_setPass hnested
  cases action with
  | input => exact absurd rfl hinput
  -- the structure of a script
  | closeBrace =>
    show Ends kinds (if context.innermost = .none then throw (.refused .strayBrace)
      else pure Command.close) (Settles (context.innermost ≠ .none))
    by_cases hin : context.innermost = .none
    · rw [if_pos hin]
      exact ends_throw (settles_refused (not_not_intro hin) rfl)
    · rw [if_neg hin]
      exact ends_of_gives (gives_pure _) (settles_ok hin _)
  | compositor =>
    obtain ⟨name, rfl⟩ := hfits
    by_cases hin : context.innermost = .none
    · exact ends_of_gives (asks_compositor hin name token) (settles_ok hin _)
    · have hthrows : requireIn context token .none = (throw (misplaced context token)) :=
        if_neg hin
      show Ends _ (requireIn context token .none >>= _) _
      rw [hthrows]
      exact ends_throw (settles_refused hin rfl)
  | technique | targetOutput =>
    exact ends_objectOf hnested (by decide) fun _ => ⟨_, gives_pure _⟩
  | texture =>
    obtain ⟨name, width, height, format, hwidth, hheight, hformat, rfl⟩ := hfits
    obtain ⟨_, hformat⟩ := exists_valueOf .pixelFormat hformat token.line []
    obtain ⟨_, hheight⟩ := exists_lengthOr hheight [format.kind]
    obtain ⟨_, hwidth⟩ := exists_lengthOr hwidth [height, format.kind]
    exact ends_objectOf hnested (by decide) fun _ =>
      ⟨_, gives_bind (gives_label name) (gives_bind hwidth (gives_bind hheight
        (gives_bind hformat (gives_pure _))))⟩
  | target =>
    obtain ⟨name, rfl⟩ := hfits
    exact ends_objectOf hnested (by decide) fun _ =>
      ⟨_, gives_bind (gives_label name) (gives_pure _)⟩
  | pass =>
    obtain ⟨_, htype⟩ := exists_takesValue .passType hfits token.line
    exact ends_objectOf hnested (by decide) fun _ => ⟨_, gives_bind htype (gives_pure _)⟩
  -- what is said of a target
  | onlyInitial =>
    exact ends_bind (exists_takesValue _ hfits token.line) fun _ => ends_setOption hnested nofun
  | visibilityMask =>
    obtain ⟨x, rfl⟩ := hfits
    exact ends_bind (exists_integer32 _ x) fun _ => ends_setOption hnested nofun
  | lodBias =>
    obtain ⟨x, rfl⟩ := hfits
    exact ends_bind (exists_single _ x) fun _ => ends_setOption hnested nofun
  | materialScheme =>
    obtain ⟨name, rfl⟩ := hfits
    exact ends_bind ⟨_, gives_label name⟩ fun _ => ends_setOption hnested nofun
  -- what is said of a pass
  | material =>
    obtain ⟨name, rfl⟩ := hfits
    exact ends_bind ⟨_, gives_label name⟩ fun _ => hpass _
  | firstRenderQueue | lastRenderQueue =>
    obtain ⟨x, rfl⟩ := hfits
    exact ends_bind (exists_integer8 _ x) fun _ => hpass _
  | identifier | stencilValue | refValue | mask =>
    obtain ⟨x, rfl⟩ := hfits
    exact ends_bind (exists_integer32 _ x) fun _ => hpass _
  | depthValue =>
    obtain ⟨x, rfl⟩ := hfits
    exact ends_bind (exists_single _ x) fun _ => hpass _
  | buffers =>
    obtain ⟨ks, hks, rfl⟩ := hfits
    intro arguments hhave
    -- as many buffers are read as there are arguments
    have hlength : arguments.remaining = ks.length := by
      have hlengths := congrArg List.length hhave
      rwa [List.length_map, List.length_map] at hlengths
    have hread : (Command.read context token .buffers).run arguments =
        (buffers token.line arguments.remaining >>= fun found =>
          setPass context token (.clearBuffers found)).run arguments := rfl
    rw [hread, hlength]
    exact ends_bind (exists_buffers hks token.line) (fun _ => hpass _) arguments hhave
  | colourValue =>
    obtain ⟨r, g, b, a, rfl⟩ := hfits
    exact ends_bind (exists_readColour r g b a) fun _ => hpass _
  | check | compFunc | failOp | depthFailOp | passOp | twoSided =>
    exact ends_bind (exists_takesValue _ hfits token.line) fun _ => hpass _

/-- An `input` is read to a command where it belongs, and is refused elsewhere, unless it gives
    a slot to a target. -/
theorem ends_readInput (token : Token) (hnested : context.Nested)
    (htakes : Action.Takes .input kinds) (hslot : ¬ IsSlotOfTarget context .input kinds) :
    Ends kinds (readInput context token) fun outcome =>
      ((⟨.input, kinds⟩ : UnitShape).BelongsIn context → ∃ command, outcome = .ok command) ∧
      (¬ (⟨.input, kinds⟩ : UnitShape).BelongsIn context →
        ∃ refusal, outcome = .error (.refused refusal)) := by
  have hmisplaced : ∀ {place : Prop} {outcome : Except Failure Command}, Settles place outcome →
      (place → ∃ command, outcome = .ok command) ∧
        (¬ place → ∃ refusal, outcome = .error (.refused refusal)) :=
    fun hsettles => ⟨hsettles.1, fun hnot => (hsettles.2 hnot).imp fun _ h => h.1⟩
  rcases htakes with hmode | ⟨x, name, rfl⟩
  · -- a mode belongs in a target
    obtain ⟨k, hk, rfl⟩ := hmode
    show Ends [k.kind] (readInput context token) fun outcome =>
      (context.innermost = .target → _) ∧ (¬ context.innermost = .target → _)
    unfold readInput
    split
    · rename_i hin
      refine ends_bind (exists_valueOf _ hk token.line _) fun mode => ?_
      obtain ⟨handle, hhandle⟩ := handle_of_nested hnested (by decide) hin
      exact ends_of_gives (gives_setTarget hin hhandle (.inr ⟨mode, rfl⟩))
        (hmisplaced (settles_ok hin _))
    · rename_i hin
      -- it is no slot, so nothing more is read
      intro arguments hhave
      obtain ⟨tokens, endLine⟩ := arguments
      obtain ⟨t, rest, rfl, ht, _⟩ := List.map_eq_cons_iff.mp hhave
      obtain ⟨_, offset, line⟩ := t
      cases ht
      refine ⟨fun htarget => ?_, fun _ => ⟨.argument (.unexpectedKind .number k.id), rfl⟩⟩
      rw [hin] at htarget
      cases htarget
    · rename_i hnotTarget _
      exact ends_throw (hmisplaced (settles_refused hnotTarget rfl))
  · -- a slot belongs in a pass
    show Ends [.number x, .label name] (readInput context token) fun outcome =>
      (context.innermost = .pass → _) ∧ (¬ context.innermost = .pass → _)
    unfold readInput
    split
    · rename_i hin
      exact absurd ⟨hin, rfl, x, name, rfl⟩ hslot
    · refine ends_bind (exists_integer32 _ x) fun _ => ends_bind ⟨_, gives_label name⟩ fun _ => ?_
      intro arguments hhave
      exact hmisplaced (ends_setPass hnested _ arguments hhave)
    · rename_i hnotPass
      exact ends_throw (hmisplaced (settles_refused hnotPass rfl))

end
end Compositing.Script
